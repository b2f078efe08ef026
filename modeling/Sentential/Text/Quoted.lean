import Sentential.Text.Printable
/-!
# Quoted texts

A quoted text stands in single quotes, or in double quotes if it holds a single quote and no
double one.  The surrounding mark, the backslash, tab, newline and return are escaped with a
backslash; any other character that is not printable is written by its code point in two, four or
eight hexadecimal digits.
-/

namespace Sentential.Text

/-- The mark that surrounds a quoted text. -/
def quoteMark (s : List Char) : Char :=
  if s.contains '\'' && !s.contains '"' then '"' else '\''

private def hexDigits (width n : Nat) : List Char :=
  (Nat.toDigits 16 n).leftpad width '0'

/-- How a character is written between two marks. -/
def escaped (mark c : Char) : List Char :=
  if c = mark ∨ c = '\\' then ['\\', c]
  else if c = '\t' then ['\\', 't']
  else if c = '\n' then ['\\', 'n']
  else if c = '\r' then ['\\', 'r']
  else if isPrintable c then [c]
  else if c.toNat < 0x100 then '\\' :: 'x' :: hexDigits 2 c.toNat
  else if c.toNat < 0x10000 then '\\' :: 'u' :: hexDigits 4 c.toNat
  else '\\' :: 'U' :: hexDigits 8 c.toNat

/-- The quoted form of a text. -/
def quoted (s : String) : String :=
  let mark := quoteMark s.toList
  String.ofList (mark :: s.toList.flatMap (escaped mark) ++ [mark])

/-- The quoted forms of several texts in parentheses; a single one is followed by a comma. -/
def quotedGroup : List String → String
  | [s] => "(" ++ quoted s ++ ",)"
  | ss => "(" ++ ", ".intercalate (ss.map quoted) ++ ")"

end Sentential.Text
