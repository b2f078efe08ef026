import Sentential.Number.Numeral
/-!
# Surfaces to draw on

A surface has a size in inches, which must be finite and not negative.  Its axes lie inside it and
are one unit wide and one unit high.

An arrow is outlined in dots, and its outline is then carried back to the coordinates of the axes.
So the place in dots that it starts from must not be too large to be a number, and the surface must
have an area.
-/

namespace Sentential

/-- A surface to draw on, with its size in inches. -/
structure Surface where
  width : Rat
  height : Rat
  deriving DecidableEq

/-- Why a size is the size of no surface. -/
inductive SurfaceError where
  | tooWide
  | outOfRange (width height : Numeral)

namespace SurfaceError

def message : SurfaceError → String
  | .tooWide =>
    "ufunc 'isfinite' not supported for the input types, and the inputs could not be safely " ++
      "coerced to any supported types according to the casting rule ''safe''"
  | .outOfRange width height =>
    "figure size must be positive finite not (" ++ width.written ++ ", " ++ height.written ++ ")"

end SurfaceError

/-- Why an arrow has no outline. -/
inductive OutlineError where
  | unbounded
  | flat

namespace OutlineError

def message : OutlineError → String
  | .unbounded => ""
  | .flat => "Singular matrix"

end OutlineError

namespace Numeral

/-- Whether a number fits in 64 bits: binary numbers do, whole ones with or without a sign. -/
def fitsWord : Numeral → Bool
  | .whole n => decide (-0x8000000000000000 ≤ n ∧ n < 0x10000000000000000)
  | .binary _ => true

end Numeral

namespace Surface

/-- The surface of a diagram that is drawn on a new one. -/
def diagram : Surface := ⟨6, 15 / 4⟩

/-- The surface of a plotted graph where no size is asked for. -/
def plot : Surface := ⟨6, 5⟩

/-- The surface that one gets without asking for a size. -/
def standard : Surface := ⟨32 / 5, 24 / 5⟩

/-- The surface of a given size. -/
def ofSize (width height : Numeral) : Except SurfaceError Surface :=
  if !(width.fitsWord && height.fitsWord) then .error .tooWide
  else
    match width.value?, height.value? with
    | some w, some h =>
      if w < 0 ∨ h < 0 then .error (.outOfRange width height)
      else .ok ⟨Number.binaryRound w, Number.binaryRound h⟩
    | _, _ => .error (.outOfRange width height)

/-- How many dots an inch has. -/
def dotsPerInch : Rat := 100

/-- The part of a side along which the axes lie. -/
structure Extent where
  low : Rat
  high : Rat

def horizontalExtent : Extent := ⟨1 / 8, 9 / 10⟩

def verticalExtent : Extent := ⟨11 / 100, 22 / 25⟩

/-- The place in dots of a coordinate along a side of a given length. -/
def Extent.dots? (e : Extent) (length coordinate : Rat) : Option Rat := do
  let length ← Number.binaryRound? (length * dotsPerInch)
  let low ← Number.binaryRound? (e.low * length)
  let high ← Number.binaryRound? (e.high * length)
  let unit ← Number.binaryRound? (high - low)
  let distance ← Number.binaryRound? (unit * coordinate)
  Number.binaryRound? (low + distance)

/-- The place in dots of a point. -/
def dots? (s : Surface) (x y : Rat) : Option (Rat × Rat) := do
  return (← horizontalExtent.dots? s.width x, ← verticalExtent.dots? s.height y)

/-- Why no arrow can be outlined from a point, if none can. -/
def outlineError? (s : Surface) (x y : Rat) : Option OutlineError :=
  if (s.dots? x y).isNone then some .unbounded
  else if s.width = 0 ∨ s.height = 0 then some .flat
  else none

end Surface

end Sentential
