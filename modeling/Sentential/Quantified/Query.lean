import Sentential.Quantified.World
import Sentential.Text.Quoted
/-!
# Quantified queries

A quantifier asks a question of the items of a world one after the other and stops at the first
answer that decides it: a universal one at the first no, an existential one at the first yes.

A shape query asks whether all items of a shape have a colour, or whether some item has both.
-/

namespace Sentential

inductive Quantifier where
  | universal
  | existential
  deriving DecidableEq

/-- The outcome of a quantified question, and the items it was asked of, in order. -/
structure Inquiry (α : Type) where
  result : Bool
  visited : List α
  deriving DecidableEq

/-- Whether all items satisfy a predicate, asked until the first one that does not. -/
def askAll {α : Type} (p : α → Bool) : List α → Inquiry α
  | [] => ⟨true, []⟩
  | x :: rest =>
    if p x then
      let later := askAll p rest
      ⟨later.result, x :: later.visited⟩
    else ⟨false, [x]⟩

/-- Whether some item satisfies a predicate, asked until the first one that does. -/
def askAny {α : Type} (p : α → Bool) : List α → Inquiry α
  | [] => ⟨false, []⟩
  | x :: rest =>
    if p x then ⟨true, [x]⟩
    else
      let later := askAny p rest
      ⟨later.result, x :: later.visited⟩

namespace Quantifier

def all : List Quantifier := [.universal, .existential]

def name : Quantifier → String
  | .universal => "forall"
  | .existential => "exists"

def ask {α : Type} : Quantifier → (α → Bool) → List α → Inquiry α
  | .universal => askAll
  | .existential => askAny

end Quantifier

/-- Whether every item of a shape has a colour, or whether some item has the shape and the
colour. -/
structure ShapeQuery where
  quantifier : Quantifier
  shape : Shape
  hue : Hue
  deriving DecidableEq

/-- A name in a query that is not known. -/
inductive QueryError where
  | unknownQuantifier (name : String)
  | unknownShape (name : String)
  | unknownHue (name : String)
  deriving DecidableEq

namespace QueryError

def message : QueryError → String
  | .unknownQuantifier name => "Unknown quantifier " ++ Text.quoted name
  | .unknownShape name => "Unknown shape " ++ Text.quoted name
  | .unknownHue name => "Unknown color " ++ Text.quoted name

end QueryError

namespace ShapeQuery

/-- The query with the given names, which are checked from left to right. -/
def ofNames (quantifier shape hue : String) : Except QueryError ShapeQuery :=
  match Quantifier.all.find? (·.name == quantifier) with
  | none => .error (.unknownQuantifier quantifier)
  | some q =>
    match Shape.all.find? (·.name == shape) with
    | none => .error (.unknownShape shape)
    | some s =>
      match Hue.all.find? (·.name == hue) with
      | none => .error (.unknownHue hue)
      | some h => .ok ⟨q, s, h⟩

/-- What the query asks of one item.  Items of other shapes satisfy the universal query. -/
def asksOf (q : ShapeQuery) (item : Item) : Bool :=
  match q.quantifier with
  | .universal => if item.shape = q.shape.name then item.colour == q.hue.name else true
  | .existential => item.shape == q.shape.name && item.colour == q.hue.name

/-- The answer in a world. -/
def evaluate (q : ShapeQuery) (w : World) : Bool := (q.quantifier.ask q.asksOf w).result

/-- The query as a formula. -/
def text (q : ShapeQuery) : String :=
  match q.quantifier with
  | .universal => "∀x (" ++ q.shape.name ++ "(x) → " ++ q.hue.name ++ "(x))"
  | .existential => "∃x (" ++ q.shape.name ++ "(x) ∧ " ++ q.hue.name ++ "(x))"

end ShapeQuery

end Sentential
