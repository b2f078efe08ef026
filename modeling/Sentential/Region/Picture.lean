import Sentential.Region.Disk
import Sentential.Region.Shading
/-!
# The picture of a shading

Every pixel of a shaded region has the colour of its region, with a chosen opacity.  All other
pixels are transparent black.
-/

namespace Sentential

/-- A colour with an opacity.  Channels run from zero to one. -/
structure Colour where
  red : Rat
  green : Rat
  blue : Rat
  alpha : Rat
  deriving DecidableEq

namespace Colour

def transparent : Colour := ⟨0, 0, 0, 0⟩

/-- A colour given by channels from 0 to 255. -/
def ofBytes (red green blue : Nat) (alpha : Rat) : Colour :=
  ⟨red / 255, green / 255, blue / 255, alpha⟩

def channels (c : Colour) : List Rat := [c.red, c.green, c.blue, c.alpha]

/-- Whether the colour differs from black. -/
def isPainted (c : Colour) : Bool := 0 < c.red + c.green + c.blue

end Colour

namespace Region

/-- The colour of a region.  The left circle alone and the right circle alone have the colours of
the circles. -/
def colour (alpha : Rat) : Region → Colour
  | .leftOnly => .ofBytes 124 154 255 alpha
  | .rightOnly => .ofBytes 49 196 141 alpha
  | .both => .ofBytes 86 175 198 alpha

end Region

namespace Shading

/-- The opacity of shaded regions where none is given. -/
def defaultAlpha : Rat := 7 / 10

/-- The colour of a pixel. -/
def pixel (s : Shading) (alpha : Rat) (row column : Nat) : Colour :=
  match Region.ofPixel? row column with
  | some r => if s.get r then r.colour alpha else .transparent
  | none => .transparent

/-- How many pixels of the picture are painted. -/
def paintedCount (s : Shading) (alpha : Rat) : Nat :=
  Canvas.pixels.countP fun (row, column) => (s.pixel alpha row column).isPainted

end Shading

end Sentential
