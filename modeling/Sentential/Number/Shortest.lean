import Sentential.Number.Binary
/-!
# The shortest decimal that reads back

A binary number is written with the fewest significant digits from which it can be read back, that
is, whose decimal rounds to it.  Of several decimals of that length the nearest is taken, and of two
that are equally near the one with an even last digit.  Seventeen digits always read back.
-/

namespace Sentential.Number

/-- Significant digits and the place of the point: `0.d₁d₂… * 10 ^ point`. -/
structure Significant where
  digits : List Char
  point : Int
  deriving DecidableEq

/-- The least exponent of ten whose power is above a positive number. -/
def decimalSize (x : Rat) : Int :=
  if 1 ≤ x then (Nat.toDigits 10 x.floor.toNat).length
  else 1 - (Nat.toDigits 10 ((1 / x).ceil.toNat - 1)).length

/-- The nearer of the two multiples of `unit` around a number, of those that read back. -/
def nearestReadable (x unit : Rat) : Option Nat :=
  let low := (x / unit).floor.toNat
  let readsBack := fun (n : Nat) => binaryRound (n * unit) == x
  match readsBack low, readsBack (low + 1) with
  | true, true => some (roundHalfEven (x / unit)).toNat
  | true, false => some low
  | false, true => some (low + 1)
  | false, false => none

/-- The largest number of digits that is ever needed. -/
def mostDigits : Nat := 17

/-- The digits of a number of units, without zeros at the end. -/
def Significant.ofUnits (units : Nat) (exponent : Int) : Significant :=
  let digits := Nat.toDigits 10 units
  ⟨(digits.reverse.dropWhile (· == '0')).reverse, digits.length + exponent⟩

/-- The fewest digits from which a positive binary number can be read back. -/
def shortest (x : Rat) : Significant :=
  let size := decimalSize x
  let attempt := fun (count : Nat) =>
    (nearestReadable x (10 ^ (size - count))).map (Significant.ofUnits · (size - count))
  let last := size - mostDigits
  ((List.range mostDigits).findSome? fun i => attempt (i + 1)).getD
    (.ofUnits (roundHalfEven (x / 10 ^ last)).toNat last)

end Sentential.Number
