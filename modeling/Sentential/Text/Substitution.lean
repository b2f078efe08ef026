import Sentential.Text.LetterCase
import Sentential.Text.Template
/-!
# Substituting spellings

A rule replaces every occurrence of a spelling in a text.  Occurrences are found from left to
right and do not overlap, and each is replaced by the rule's template filled in with it.  A rule may
ignore case, and it may ask that the occurrence begins and ends at a word boundary; boundaries are
those of the text before the rule was applied.
-/

namespace Sentential.Text

/-- A spelling, what takes its place, and how it is recognised. -/
structure Rule where
  spelling : List Char
  replacement : Template
  anyCase : Bool := false
  wholeWord : Bool := false

/-- Whether a text begins with a spelling, where `same` compares single characters. -/
def beginsWith (same : Char → Char → Bool) : List Char → List Char → Bool
  | [], _ => true
  | _ :: _, [] => false
  | p :: ps, c :: cs => same p c && beginsWith same ps cs

namespace Rule

/-- Whether two characters count as equal for the rule. -/
def same (r : Rule) (a b : Char) : Bool :=
  if r.anyCase then sameLetter a b else a == b

/-- Whether an occurrence begins here; `before` is the character to the left.  The empty spelling
occurs nowhere. -/
def occursAt (r : Rule) (before : Option Char) (s : List Char) : Bool :=
  let width := r.spelling.length
  !r.spelling.isEmpty && beginsWith r.same r.spelling s &&
    (!r.wholeWord ||
      isBoundary before s.head? && isBoundary s[width - 1]? s[width]?)

/-- What takes the place of an occurrence. -/
def written (r : Rule) (found : List Char) : List Char := r.replacement.fill found

/-- Replaces the occurrences in the rest of a text, of which the first `skip` characters belong to
an occurrence that has been replaced already. -/
def applyFrom (r : Rule) : Nat → Option Char → List Char → List Char
  | _, _, [] => []
  | skip + 1, _, c :: rest => r.applyFrom skip (some c) rest
  | 0, before, c :: rest =>
    if r.occursAt before (c :: rest) then
      r.written ((c :: rest).take r.spelling.length) ++
        r.applyFrom (r.spelling.length - 1) (some c) rest
    else
      c :: r.applyFrom 0 (some c) rest

/-- Replaces every occurrence of the spelling in a text. -/
def apply (r : Rule) (s : List Char) : List Char := r.applyFrom 0 none s

@[simp] theorem apply_nil (r : Rule) : r.apply [] = [] := rfl

end Rule

/-- Applies the rules one after the other, each to the whole text. -/
def substituteAll (rules : List Rule) (s : List Char) : List Char :=
  rules.foldl (fun t r => r.apply t) s

end Sentential.Text
