import Sentential.Value
/-!
# Program listings

A listing is what one hands to the machine: instructions, and possibly other values among them.
The machine runs the instructions in order and refuses the first entry that is none.
-/

namespace Sentential

/-- One line of a listing. -/
inductive Entry where
  | instruction (i : Instruction)
  | other (v : Value)

/-- The refusal of an entry that is no instruction. -/
structure NotAnInstruction where
  value : Value

namespace NotAnInstruction

def message (e : NotAnInstruction) : String := "Not an instruction: " ++ e.value.written

end NotAnInstruction

abbrev Listing := List Entry

namespace Entry

def text : Entry → String
  | .instruction i => i.text
  | .other v => v.shown

end Entry

namespace Listing

def ofProgram (p : Program) : Listing := p.map .instruction

/-- The instructions before the first entry that is none, and that entry. -/
def readable : Listing → Program × Option NotAnInstruction
  | [] => ([], none)
  | .instruction i :: rest =>
    let (p, stop) := readable rest
    (i :: p, stop)
  | .other v :: _ => ([], some ⟨v⟩)

/-- The value that a listing computes. -/
def evaluate (l : Listing) (v : Valuation) : Except NotAnInstruction Bool :=
  match readable l with
  | (p, none) => .ok (p.evaluate v)
  | (_, some e) => .error e

/-- The entries in order, with a space between neighbours. -/
def postfixText (l : Listing) : String := " ".intercalate (l.map Entry.text)

end Listing

end Sentential
