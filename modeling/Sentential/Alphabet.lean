/-!
# Alphabets

An atom is a propositional variable.  An alphabet says which texts are atoms of a formula, and
whether connectives may also be written as words.  The order of the atoms matters to whoever splits
a text into tokens.
-/

namespace Sentential

structure Alphabet where
  atoms : List String
  wordSpellings : Bool := false
  deriving DecidableEq

namespace Alphabet

/-- Four atoms; connectives are written as symbols only. -/
def builder : Alphabet := { atoms := ["P", "Q", "R", "S"] }

/-- The two atoms of a two-set diagram; connectives may be written as words. -/
def diagram : Alphabet := { atoms := ["P", "Q"], wordSpellings := true }

def isAtom (a : Alphabet) (s : String) : Bool := a.atoms.contains s

end Alphabet

end Sentential
