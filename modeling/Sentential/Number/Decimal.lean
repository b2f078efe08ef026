/-!
# Decimals with a fixed number of places

A number is rounded to the nearest decimal with the wanted number of places; of two that are
equally near, the one with an even last digit is taken.
-/

namespace Sentential.Number

/-- The nearest whole number; a half goes to the even neighbour. -/
def roundHalfEven (x : Rat) : Int :=
  let low := x.floor
  let rest := x - low
  if rest < 1 / 2 then low
  else if 1 / 2 < rest then low + 1
  else if low % 2 = 0 then low else low + 1

/-- The digits before and after the point of a number that is given in units of its last place. -/
def splitDigits (places units : Nat) : List Char × List Char :=
  let digits := (Nat.toDigits 10 units).leftpad (places + 1) '0'
  digits.splitAt (digits.length - places)

/-- A number with a fixed number of places.  What rounds to zero has no sign. -/
def fixedPoint (places : Nat) (x : Rat) : String :=
  let units := roundHalfEven (x * 10 ^ places)
  let (whole, decimals) := splitDigits places units.natAbs
  (if units < 0 then "-" else "") ++ String.ofList (whole ++ '.' :: decimals)

end Sentential.Number
