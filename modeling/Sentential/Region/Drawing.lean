import Sentential.Region.Picture
import Sentential.Surface
/-!
# Drawing the diagram

The drawing puts the picture of a shading on a surface, and on it the two circles, their labels and
a title.  A circle has a bolder edge if any region in it is shaded.
-/

namespace Sentential

/-- The outline of a set in the diagram. -/
structure Outline where
  disk : Disk
  face : Colour
  edge : Colour
  lineWidth : Nat

/-- A piece of text at a place of the canvas. -/
structure Caption where
  x : Nat
  y : Nat
  text : String
  colour : String
  size : Nat

/-- A diagram as it stands on its surface.  The vertical axis points downwards. -/
structure Drawing where
  surface : Surface
  onGivenSurface : Bool
  picture : Shading
  outlines : List Outline
  captions : List Caption
  title : String

namespace Disk

private def faceAlpha : Rat := 3 / 20

private def edgeAlpha : Rat := 9 / 10

/-- The outline of a disk in the colour of the region that lies in it alone. -/
def outline (d : Disk) (r : Region) (marked : Bool) : Outline where
  disk := d
  face := r.colour faceAlpha
  edge := r.colour edgeAlpha
  lineWidth := if marked then 3 else 2

end Disk

namespace Shading

private def caption (x : Nat) (text : String) : Caption := ⟨x, 145, text, "#555b80", 12⟩

/-- Draws the diagram.  Its title is the summary of the shading where none is given. -/
def draw (s : Shading) (labels : Labels) (title? : Option String) (surface? : Option Surface) :
    Except LabelError Drawing := do
  let (left, right) ← labels.firstTwo
  let title ← match title? with
    | some title => .ok title
    | none => s.summary labels
  return {
    surface := surface?.getD Surface.diagram
    onGivenSurface := surface?.isSome
    picture := s
    outlines := [
      Disk.left.outline .leftOnly (s.leftOnly || s.both),
      Disk.right.outline .rightOnly (s.rightOnly || s.both)]
    captions := [caption 150 left, caption 325 right]
    title := title }

end Shading

end Sentential
