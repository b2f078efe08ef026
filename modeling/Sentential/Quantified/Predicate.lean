import Sentential.Quantified.World
/-!
# Predicates on items

A predicate compares one property of an item with a fixed value.  Numbers are compared by size and
texts by their code points; a number and a text are never equal.
-/

namespace Sentential

/-- A property of an item: a number or a text. -/
inductive Property where
  | number (x : Rat)
  | text (s : String)
  deriving DecidableEq

namespace Property

def less : Property → Property → Bool
  | .number x, .number y => x < y
  | .text s, .text t => s < t
  | _, _ => false

end Property

inductive ItemField where
  | id
  | colour
  | shape
  deriving DecidableEq

inductive Comparison where
  | equal
  | less
  deriving DecidableEq

namespace Item

def property (item : Item) : ItemField → Property
  | .id => .number item.id
  | .colour => .text item.colour
  | .shape => .text item.shape

end Item

structure ItemPredicate where
  field : ItemField
  comparison : Comparison
  value : Property
  deriving DecidableEq

namespace ItemPredicate

def holds (p : ItemPredicate) (item : Item) : Bool :=
  match p.comparison with
  | .equal => item.property p.field == p.value
  | .less => (item.property p.field).less p.value

end ItemPredicate

end Sentential
