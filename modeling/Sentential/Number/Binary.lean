import Sentential.Number.Decimal
/-!
# Numbers of 53 significant bits

A binary number has at most 53 significant binary digits, none of them below `2 ^ -1074`.  A number
is rounded to the nearest of these; of two that are equally near, the one with an even last digit is
taken.  There is no binary number from `2 ^ 1024` on.
-/

namespace Sentential.Number

/-- The number of significant binary digits that are kept. -/
def significantBits : Nat := 53

/-- The exponent below which no binary digit is kept. -/
def leastExponent : Int := -1074

/-- The exponent of the first power of two that is too large. -/
def overflowExponent : Int := 1024

/-- The exponent of the last binary digit that is kept of a number other than zero. -/
def lastBitExponent (x : Rat) : Int :=
  let size : Int := (x.num.natAbs.log2 : Int) - x.den.log2
  let leading := if x.abs < 2 ^ size then size - 1 else size
  max (leading - (significantBits - 1)) leastExponent

/-- The nearest binary number. -/
def binaryRound (x : Rat) : Rat :=
  if x = 0 then 0
  else
    let unit : Rat := 2 ^ lastBitExponent x
    roundHalfEven (x / unit) * unit

/-- The nearest binary number, unless that is too large. -/
def binaryRound? (x : Rat) : Option Rat :=
  let y := binaryRound x
  if y.abs < 2 ^ overflowExponent then some y else none

end Sentential.Number
