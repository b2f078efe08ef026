/-!
# Connectives

The five connectives of propositional logic: negation, and the four connectives that join two
formulas.  Each has a glyph, an arity, a precedence (higher binds tighter) and an associativity.

A connective may be applied to fewer operands than it takes.  A missing operand counts as false,
except that the biconditional equates it only with another missing operand.
-/

namespace Sentential

/-- The connectives that join two formulas. -/
inductive BinaryConnective where
  | and
  | or
  | implies
  | iff
  deriving DecidableEq

inductive Connective where
  | not
  | binary (b : BinaryConnective)
  deriving DecidableEq

inductive Associativity where
  | left
  | right
  deriving DecidableEq

namespace Associativity

def name : Associativity → String
  | .left => "left"
  | .right => "right"

end Associativity

namespace BinaryConnective

/-- The truth value of two joined formulas. -/
def holds : BinaryConnective → Bool → Bool → Bool
  | .and, a, b => a && b
  | .or, a, b => a || b
  | .implies, a, b => !a || b
  | .iff, a, b => a == b

end BinaryConnective

namespace Connective

/-- All connectives, in the order in which they are listed and looked up. -/
def all : List Connective :=
  [.not, .binary .and, .binary .or, .binary .implies, .binary .iff]

theorem mem_all (c : Connective) : c ∈ all := by
  rcases c with _ | (_ | _ | _ | _) <;> simp [all]

def name : Connective → String
  | .not => "NOT"
  | .binary .and => "AND"
  | .binary .or => "OR"
  | .binary .implies => "IMPLIES"
  | .binary .iff => "IFF"

def glyph : Connective → Char
  | .not => '¬'
  | .binary .and => '∧'
  | .binary .or => '∨'
  | .binary .implies => '→'
  | .binary .iff => '↔'

theorem glyph_injective {c d : Connective} (h : c.glyph = d.glyph) : c = d := by
  revert h
  rcases c with _ | (_ | _ | _ | _) <;> rcases d with _ | (_ | _ | _ | _) <;> decide

/-- The glyph as a text of its own. -/
def text (c : Connective) : String := String.singleton c.glyph

/-- The connective that a text stands for, if the text is exactly one glyph. -/
def ofText? (s : String) : Option Connective := all.find? (fun c => c.text == s)

/-- How many operands the connective takes. -/
def arity : Connective → Nat
  | .not => 1
  | .binary _ => 2

/-- How tightly the connective binds. -/
def precedence : Connective → Nat
  | .not => 4
  | .binary .and => 3
  | .binary .or => 2
  | .binary .implies => 1
  | .binary .iff => 1

def associativity : Connective → Associativity
  | .not => .right
  | .binary _ => .left

/-- Whether a pending connective takes its operands before the incoming one is set aside:
it binds tighter, or as tightly and the incoming one groups to the left. -/
def yieldsTo (incoming pending : Connective) : Bool :=
  match incoming.associativity with
  | .left => incoming.precedence ≤ pending.precedence
  | .right => incoming.precedence < pending.precedence

/-- The truth value of the connective on operands of which some may be missing.  Negation reads
only the first operand. -/
def apply : Connective → Option Bool → Option Bool → Bool
  | .not, a, _ => !a.getD false
  | .binary .iff, a, b => a == b
  | .binary c, a, b => c.holds (a.getD false) (b.getD false)

theorem apply_binary_some (c : BinaryConnective) (a b : Bool) :
    (binary c).apply (some a) (some b) = c.holds a b := by
  cases c <;> simp [apply, BinaryConnective.holds]

end Connective

end Sentential
