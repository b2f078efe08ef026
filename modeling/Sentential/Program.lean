import Sentential.Connective
/-!
# Postfix programs

A compiled formula is a list of instructions for a stack machine: push the value of an atom, or
apply a connective to the values on top of the stack.  Programs are not required to be well formed;
a connective may find fewer values than it takes.
-/

namespace Sentential

inductive Instruction where
  | push (name : String)
  | apply (c : Connective)
  deriving DecidableEq

abbrev Program := List Instruction

namespace Instruction

/-- The atom's name or the connective's glyph. -/
def text : Instruction → String
  | .push name => name
  | .apply c => c.text

end Instruction

namespace Program

/-- The program in postfix notation, with a space between neighbours. -/
def postfixText (p : Program) : String := " ".intercalate (p.map Instruction.text)

end Program

end Sentential
