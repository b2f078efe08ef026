import Sentential.Alphabet
import Sentential.Text.Substitution
/-!
# Spellings of the connectives

Before a text is split into tokens, every spelling of a connective is replaced by its glyph.  The
symbolic spellings hold for every alphabet; the longer ones come first, since one ends in another.
An alphabet with word spellings also takes the English words in any case, either case of the
letter v, and its own atoms in any case.

An atom is not only the spelling to look for but also, as it stands, the template for what takes its
place.  If it is no template, no text at all can be read in its alphabet.
-/

namespace Sentential

open Text

/-- Symbolic spellings, in the order in which they are replaced. -/
def symbolRules : List Rule := [
  { spelling := "<->".toList, replacement := .literal ['↔'] },
  { spelling := "<=>".toList, replacement := .literal ['↔'] },
  { spelling := "->".toList, replacement := .literal ['→'] },
  { spelling := ['~'], replacement := .literal ['¬'] },
  { spelling := ['^'], replacement := .literal ['∧'] }]

/-- A word in any case, standing as a whole word, is written as a glyph. -/
def wordRule (word : String) (glyph : Char) : Rule :=
  { spelling := word.toList, replacement := .literal [glyph], anyCase := true, wholeWord := true }

/-- English words for the connectives, each standing as a whole word, and the letter v anywhere. -/
def wordRules : List Rule := [
  wordRule "iff" '↔',
  wordRule "implies" '→',
  wordRule "not" '¬',
  wordRule "and" '∧',
  wordRule "or" '∨',
  { spelling := ['v'], replacement := .literal ['∨'], anyCase := true }]

/-- The letter v for disjunction where words are not spellings: only the lower-case letter. -/
def letterRule : Rule := { spelling := ['v'], replacement := .literal ['∨'] }

/-- What is wrong with an atom as a template. -/
def atomFault? (name : String) : Option TemplateError :=
  match Template.read name.toList with
  | .ok _ => none
  | .error e => some e

/-- What takes the place of an atom.  An atom that is no template is kept; no text is rewritten by
its rule. -/
def atomTemplate (name : String) : Template :=
  match Template.read name.toList with
  | .ok t => t
  | .error _ => .literal name.toList

/-- An atom in any case, standing as a whole word, is written as its template says. -/
def atomRule (name : String) : Rule :=
  { spelling := name.toList, replacement := atomTemplate name, anyCase := true, wholeWord := true }

namespace Alphabet

/-- The spellings that the alphabet accepts, in the order in which they are replaced. -/
def rules (a : Alphabet) : List Rule :=
  symbolRules ++
    if a.wordSpellings then wordRules ++ a.atoms.map atomRule else [letterRule]

/-- Replaces every spelling of a connective by its glyph. -/
def canonical (a : Alphabet) (s : List Char) : List Char := substituteAll a.rules s

/-- The text with every spelling of a connective replaced by its glyph, as long as the atoms are
templates. -/
def canonicalText (a : Alphabet) (s : String) : String := String.ofList (a.canonical s.toList)

/-- Why no text can be read in the alphabet: the first atom that is no template, where atoms are
spellings. -/
def templateError? (a : Alphabet) : Option TemplateError :=
  if a.wordSpellings then a.atoms.findSome? atomFault? else none

/-- Rewrites a text, unless no text can be read in the alphabet. -/
def normalize (a : Alphabet) (s : String) : Except TemplateError String :=
  match a.templateError? with
  | some e => .error e
  | none => .ok (a.canonicalText s)

end Alphabet

end Sentential
