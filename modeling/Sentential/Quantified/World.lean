import Sentential.Frame
/-!
# Worlds of coloured shapes

A world is a list of items, each with a number, a colour and a shape.  Colours and shapes are
texts, since a world may hold others than the known ones.  A generated world has items numbered
from zero, with known colours and shapes that a library of random numbers draws.
-/

namespace Sentential

/-- The known colours. -/
inductive Hue where
  | red
  | blue
  | green
  | yellow
  | purple
  deriving DecidableEq

namespace Hue

def all : List Hue := [.red, .blue, .green, .yellow, .purple]

theorem length_all_pos : 0 < all.length := by decide

def name : Hue → String
  | .red => "red"
  | .blue => "blue"
  | .green => "green"
  | .yellow => "yellow"
  | .purple => "purple"

end Hue

/-- The known shapes. -/
inductive Shape where
  | circle
  | square
  | triangle
  deriving DecidableEq

namespace Shape

def all : List Shape := [.circle, .square, .triangle]

theorem length_all_pos : 0 < all.length := by decide

def name : Shape → String
  | .circle => "circle"
  | .square => "square"
  | .triangle => "triangle"

end Shape

structure Item where
  id : Int
  colour : String
  shape : String
  deriving DecidableEq

abbrev World := List Item

/-- What draws random numbers.  A generator is started from a seed, if one is given, and draws as
many numbers below a bound as it is asked for; both may be refused with a message. -/
structure RandomLibrary where
  Generator : Type
  start : (seed? : Option Int) → Except String Generator
  draw : Generator → (bound : Nat) → 0 < bound → (count : Int) →
    Except String (List (Fin bound) × Generator)

namespace World

/-- A cell of the frame of a world. -/
inductive Cell where
  | number (n : Int)
  | text (s : String)
  deriving DecidableEq

/-- The frame of a world, with a row for every item. -/
def frame (lib : FrameLibrary) (w : World) : Except String (Frame Cell) :=
  lib.build ["id", "color", "shape"]
    (w.map fun item => [.number item.id, .text item.colour, .text item.shape])

/-- The item with a given number. -/
def drawnItem (colour : Fin Hue.all.length) (shape : Fin Shape.all.length) (index : Nat) :
    Item where
  id := index
  colour := (Hue.all.get colour).name
  shape := (Shape.all.get shape).name

/-- The size of a generated world where none is asked for. -/
def defaultCount : Int := 24

/-- A world of `count` items.  First the colours of all items are drawn, then the shapes. -/
def generate (lib : RandomLibrary) (count : Int) (seed? : Option Int) : Except String World := do
  let generator ← lib.start seed?
  let (colours, generator) ← lib.draw generator Hue.all.length Hue.length_all_pos count
  let (shapes, _) ← lib.draw generator Shape.all.length Shape.length_all_pos count
  return (colours.zip shapes).mapIdx fun index (colour, shape) => drawnItem colour shape index

end World

end Sentential
