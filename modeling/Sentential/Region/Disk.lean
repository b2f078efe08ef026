import Sentential.Region.Basic
/-!
# The circles of the diagram

The diagram is a canvas of pixels with two overlapping circles of one radius.  A pixel belongs to a
circle if its centre lies in it or on it.  Coordinates grow to the right and downwards; the centre
of the pixel in row `i` and column `j` is at `(j + 1/2, i + 1/2)`, so the test is made on doubled
coordinates, which are whole numbers.
-/

namespace Sentential

namespace Canvas

def width : Nat := 480

def height : Nat := 300

/-- The row and the column of every pixel, row by row. -/
def pixels : List (Nat × Nat) :=
  (List.range height).flatMap fun row => (List.range width).map fun column => (row, column)

end Canvas

/-- A circle and what lies in it. -/
structure Disk where
  centerX : Nat
  centerY : Nat
  radius : Nat
  deriving DecidableEq

namespace Disk

def left : Disk := ⟨190, 150, 90⟩

def right : Disk := ⟨290, 150, 90⟩

/-- Whether the centre of a pixel lies in the disk or on its edge. -/
def contains (d : Disk) (row column : Nat) : Bool :=
  let dx : Int := 2 * column + 1 - 2 * d.centerX
  let dy : Int := 2 * row + 1 - 2 * d.centerY
  dx * dx + dy * dy ≤ (2 * d.radius) * (2 * d.radius)

end Disk

namespace Region

/-- The region of a pixel, if it has one. -/
def ofPixel? (row column : Nat) : Option Region :=
  match Disk.left.contains row column, Disk.right.contains row column with
  | true, false => some .leftOnly
  | false, true => some .rightOnly
  | true, true => some .both
  | false, false => none

/-- The columns of a row that lie in the region, as maximal runs: the first column of each and the
column after its last. -/
def runs (r : Region) (row : Nat) : List (Nat × Nat) :=
  let inside := fun column => ofPixel? row column == some r
  let starts := (List.range Canvas.width).filter fun c => inside c && (c == 0 || !inside (c - 1))
  let stops := (List.range Canvas.width).filter fun c =>
    inside c && (c + 1 == Canvas.width || !inside (c + 1))
  starts.zip (stops.map (· + 1))

/-- How many pixels lie in the region. -/
def pixelCount (r : Region) : Nat :=
  Canvas.pixels.countP fun (row, column) => ofPixel? row column == some r

end Region

end Sentential
