import Sentential.Formula
import Sentential.Listing
/-!
# Reading a program back as a formula

A program is replayed on a stack of formulas.  It denotes a formula if every connective finds its
operands and exactly one formula is left at the end.
-/

namespace Sentential

/-- Why a listing denotes no formula. -/
inductive ReplayError where
  | missingOperand (c : Connective) (position : Nat)
  | valueCount (count : Nat)
  | notAnInstruction (e : NotAnInstruction)

namespace ReplayError

def message : ReplayError → String
  | .missingOperand c position =>
    "Operator " ++ c.text ++ " at position " ++ toString position ++ " is missing an operand"
  | .valueCount count =>
    "Program leaves " ++ toString count ++ " values on the stack; expected exactly one"
  | .notAnInstruction e => e.message

end ReplayError

namespace Program

/-- Replays a program on a stack of formulas with its top first; `position` is that of the next
instruction. -/
def replay : Nat → List Formula → Program → Except ReplayError (List Formula)
  | _, stack, [] => .ok stack
  | position, stack, .push name :: p => replay (position + 1) (.atom name :: stack) p
  | position, stack, .apply .not :: p =>
    match stack with
    | f :: rest => replay (position + 1) (.negation f :: rest) p
    | [] => .error (.missingOperand .not position)
  | position, stack, .apply (.binary c) :: p =>
    match stack with
    | g :: f :: rest => replay (position + 1) (.binary c f g :: rest) p
    | _ => .error (.missingOperand (.binary c) position)

/-- The formula that a program denotes. -/
def formula (p : Program) : Except ReplayError Formula := do
  match ← replay 0 [] p with
  | [f] => return f
  | stack => .error (.valueCount stack.length)

end Program

namespace Listing

/-- The formula that a listing denotes. -/
def formula (l : Listing) : Except ReplayError Formula :=
  match readable l with
  | (p, none) => p.formula
  | (p, some e) => do
    let _ ← p.replay 0 []
    .error (.notAnInstruction e)

end Listing

end Sentential
