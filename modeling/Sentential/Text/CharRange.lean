/-!
# Ascending ranges of code points

A class of characters is written as an ascending list of closed ranges of code points.  The test
stops at the first range that begins beyond the code point, so the common low characters are
decided after a few steps.
-/

namespace Sentential.Text

/-- Whether a code point lies in one of the closed ranges, which are listed in ascending order. -/
def inRanges : List (Nat × Nat) → Nat → Bool
  | [], _ => false
  | (first, last) :: rest, n => first ≤ n && (n ≤ last || inRanges rest n)

end Sentential.Text
