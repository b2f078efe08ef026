import Sentential.Assignment
import Sentential.Compilation
import Sentential.Region.Shading
/-!
# Which regions a formula shades

The two atoms of an alphabet are read as the two sets of a diagram.  A formula shades a region
if it is true of the points in it: the first atom is true in the left circle, the second in
the right one.  A formula that does not compile shades nothing.
-/

namespace Sentential

/-- An alphabet whose number of atoms is not two. -/
structure NotTwoAtoms where
  atoms : List String

namespace NotTwoAtoms

def message (e : NotTwoAtoms) : String :=
  "Region classification needs exactly two variables, got " ++ Text.quotedGroup e.atoms

end NotTwoAtoms

/-- The shading of a formula, and what went wrong if it does not compile. -/
structure Classification where
  shading : Shading
  error? : Option CompileError := none

namespace Program

/-- The value of a program at a point of the diagram. -/
def holdsAt (p : Program) (first second : String) (inLeft inRight : Bool) : Bool :=
  p.evaluate (Assignment.valuation (Assignment.set second inRight [(first, inLeft)]))

/-- The regions in which a program is true. -/
def shading (p : Program) (first second : String) : Shading where
  leftOnly := p.holdsAt first second true false
  rightOnly := p.holdsAt first second false true
  both := p.holdsAt first second true true

end Program

namespace Alphabet

/-- The regions that a formula shades. -/
def classify (a : Alphabet) (source : Source) : Except NotTwoAtoms Classification :=
  match a.atoms with
  | [first, second] =>
    match (a.compile source).outcome with
    | .ok p => .ok { shading := p.shading first second }
    | .error e => .ok { shading := .cleared, error? := some e }
  | atoms => .error ⟨atoms⟩

end Alphabet

/-- Why the regions of a formula are not classified. -/
inductive ClassificationError where
  | notTwo (e : NotTwoAtoms)
  | template (e : Text.TemplateError)

namespace Alphabet

/-- Classifies the regions of a formula, unless there is no diagram or the formula is a text and
none can be read in the alphabet. -/
def classifyRegions (a : Alphabet) (source : Source) :
    Except ClassificationError Classification :=
  match a.atoms with
  | [_, _] => do
    let ts ← (a.tokenize source).mapError .template
    (a.classify (.tokens ts)).mapError .notTwo
  | atoms => .error (.notTwo ⟨atoms⟩)

end Alphabet

end Sentential
