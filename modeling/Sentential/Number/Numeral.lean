import Sentential.Number.Shortest
/-!
# Numerals

A numeral stands for a whole number of any size or for a binary number.  A binary number has a sign
even if it is zero, and it is infinite if it is too large.

Whole numbers are written by their digits.  Binary numbers are written with the fewest digits that
read back, positionally or with an exponent of ten; a record says where the one form ends and the
other begins.
-/

namespace Sentential

/-- A binary number: its sign, and its magnitude unless that is too large. -/
inductive Binary where
  | finite (negative : Bool) (magnitude : Rat)
  | infinite (negative : Bool)
  deriving DecidableEq

/-- How binary numbers are written: positionally if the point stands from `leastPoint` to
`mostPoint` places after the first digit, else with an exponent of at least `exponentDigits`
digits. -/
structure NumberFormat where
  leastPoint : Int
  mostPoint : Int
  exponentDigits : Nat

namespace NumberFormat

/-- Digits around the point, with at least one on each side. -/
def positional (s : Number.Significant) : List Char :=
  let whole := (s.digits.take s.point.toNat).rightpad s.point.toNat '0'
  let decimals := List.replicate (-s.point).toNat '0' ++ s.digits.drop s.point.toNat
  (if whole.isEmpty then ['0'] else whole) ++ '.' :: (if decimals.isEmpty then ['0'] else decimals)

/-- Digits with the point after the first, then the exponent of ten with its sign. -/
def scientific (f : NumberFormat) (s : Number.Significant) : List Char :=
  let exponent := s.point - 1
  let decimals := s.digits.drop 1
  s.digits.take 1 ++ (if decimals.isEmpty then [] else '.' :: decimals) ++
    ['e', if exponent < 0 then '-' else '+'] ++
    (Nat.toDigits 10 exponent.natAbs).leftpad f.exponentDigits '0'

def write (f : NumberFormat) (s : Number.Significant) : List Char :=
  if f.leastPoint ≤ s.point ∧ s.point ≤ f.mostPoint then positional s else f.scientific s

end NumberFormat

namespace Binary

/-- Decimals with an exponent beyond this are too large or round to zero. -/
def decimalRange : Int := 400

/-- The binary number nearest to `digits * 10 ^ exponent`. -/
def ofDecimal (negative : Bool) (digits : Nat) (exponent : Int) : Binary :=
  let size := exponent + (Nat.toDigits 10 digits).length
  if digits = 0 ∨ size < -decimalRange then .finite negative 0
  else if decimalRange < size then .infinite negative
  else
    match Number.binaryRound? (digits * 10 ^ exponent) with
    | some magnitude => .finite negative magnitude
    | none => .infinite negative

def isZero : Binary → Bool
  | .finite _ magnitude => magnitude == 0
  | .infinite _ => false

/-- The number itself, if it is finite. -/
def value? : Binary → Option Rat
  | .finite negative magnitude => some (if negative then -magnitude else magnitude)
  | .infinite _ => none

/-- Positional from one ten-thousandth up to but not including `10 ^ 16`, else with an exponent of
at least two digits. -/
def format : NumberFormat := ⟨-3, 16, 2⟩

private def sign (negative : Bool) : String := if negative then "-" else ""

def written : Binary → String
  | .infinite negative => sign negative ++ "inf"
  | .finite negative magnitude =>
    let digits := if magnitude = 0 then ⟨['0'], 1⟩ else Number.shortest magnitude
    sign negative ++ String.ofList (format.write digits)

end Binary

inductive Numeral where
  | whole (n : Int)
  | binary (x : Binary)
  deriving DecidableEq

namespace Numeral

def isZero : Numeral → Bool
  | .whole n => n == 0
  | .binary x => x.isZero

/-- The number itself, if it is finite. -/
def value? : Numeral → Option Rat
  | .whole n => some n
  | .binary x => x.value?

def written : Numeral → String
  | .whole n => toString n
  | .binary x => x.written

end Numeral

end Sentential
