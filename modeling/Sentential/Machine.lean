import Sentential.Program
/-!
# The stack machine

A program is run on a stack of truth values.  A connective takes its right operand from the top,
then its left one; an operand that the stack does not hold is missing.  The result is the value on
top of the stack at the end, and false if the stack is empty.
-/

namespace Sentential

/-- The truth value of every atom. -/
abbrev Valuation := String → Bool

namespace Machine

/-- Runs one instruction on a stack with its top first. -/
def step (v : Valuation) (stack : List Bool) : Instruction → List Bool
  | .push name => v name :: stack
  | .apply .not => Connective.not.apply stack.head? none :: stack.tail
  | .apply (.binary c) =>
    (Connective.binary c).apply stack.tail.head? stack.head? :: stack.tail.tail

/-- Runs a program on a stack. -/
def run (v : Valuation) (stack : List Bool) (p : Program) : List Bool :=
  p.foldl (step v) stack

@[simp] theorem run_nil (v : Valuation) (stack : List Bool) : run v stack [] = stack := rfl

@[simp] theorem run_cons (v : Valuation) (stack : List Bool) (i : Instruction) (p : Program) :
    run v stack (i :: p) = run v (step v stack i) p := rfl

theorem run_append (v : Valuation) (stack : List Bool) (p q : Program) :
    run v stack (p ++ q) = run v (run v stack p) q := by
  simp [run, List.foldl_append]

end Machine

namespace Program

/-- The value that a program computes. -/
def evaluate (p : Program) (v : Valuation) : Bool := (Machine.run v [] p).head?.getD false

end Program

end Sentential
