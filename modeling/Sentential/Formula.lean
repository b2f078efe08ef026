import Sentential.Machine
/-!
# Formulas

The tree of a formula, its truth value, and its postorder program: the left operand, the right
operand, then the connective.
-/

namespace Sentential

inductive Formula where
  | atom (name : String)
  | negation (f : Formula)
  | binary (c : BinaryConnective) (left right : Formula)
  deriving DecidableEq

namespace Formula

/-- The truth value of a formula. -/
def holds (v : Valuation) : Formula → Bool
  | .atom name => v name
  | .negation f => !f.holds v
  | .binary c f g => c.holds (f.holds v) (g.holds v)

/-- The instructions of a formula, operands before connectives. -/
def postorder : Formula → Program
  | .atom name => [.push name]
  | .negation f => f.postorder ++ [.apply .not]
  | .binary c f g => f.postorder ++ g.postorder ++ [.apply (.binary c)]

/-- How many nodes the tree has. -/
def size : Formula → Nat
  | .atom _ => 1
  | .negation f => f.size + 1
  | .binary _ f g => f.size + g.size + 1

/-- How many occurrences of atoms the tree has. -/
def leafCount : Formula → Nat
  | .atom _ => 1
  | .negation f => f.leafCount
  | .binary _ f g => f.leafCount + g.leafCount

theorem length_postorder (f : Formula) : f.postorder.length = f.size := by
  induction f with
  | atom name => rfl
  | negation f ih => simp [postorder, size, ih]
  | binary c f g ihf ihg => simp [postorder, size, ihf, ihg, Nat.add_assoc]

theorem run_postorder (v : Valuation) (f : Formula) (stack : List Bool) :
    Machine.run v stack f.postorder = f.holds v :: stack := by
  induction f generalizing stack with
  | atom name => rfl
  | negation f ih => simp [postorder, holds, Machine.run_append, ih, Machine.step, Connective.apply]
  | binary c f g ihf ihg =>
    simp [postorder, holds, Machine.run_append, ihf, ihg, Machine.step,
      Connective.apply_binary_some]

end Formula

end Sentential
