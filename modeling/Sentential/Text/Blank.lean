import Sentential.Text.CharRange
/-!
# Blank characters

The characters that separate tokens and never belong to one: the ASCII controls from tab to
carriage return and from file to unit separator, the space, and the spaces and line breaks that
the Unicode character database counts as white space.
-/

namespace Sentential.Text

private def blankRanges : List (Nat × Nat) := [
  (0x9, 0xd), (0x1c, 0x20), (0x85, 0x85), (0xa0, 0xa0), (0x1680, 0x1680), (0x2000, 0x200a),
  (0x2028, 0x2029), (0x202f, 0x202f), (0x205f, 0x205f), (0x3000, 0x3000)
]

/-- Whether a character is white space. -/
def isBlank (c : Char) : Bool := inRanges blankRanges c.toNat

end Sentential.Text
