import Sentential.Text.Blank
/-!
# Frames

A frame is a rectangle of cells under named columns.  Two columns may have one name, and a cell may
be missing.

Frames are built and written by a library.  Nothing is said here of how it does so; what users of
frames rely on is that full rows are kept as they are, and that the text of full rows has
right-aligned columns.
-/

namespace Sentential

structure Frame (α : Type) where
  columns : List String
  rows : List (List (Option α))

/-- What builds a frame of columns and rows, unless it refuses them with a message, and writes a
frame of texts. -/
structure FrameLibrary where
  build : {α : Type} → (columns : List String) → (rows : List (List α)) → Except String (Frame α)
  text : Frame String → String

namespace Frame

variable {α : Type}

/-- The frame of full rows. -/
def full (columns : List String) (rows : List (List α)) : Frame α :=
  ⟨columns, rows.map (·.map some)⟩

/-- Numbers of rows and of columns. -/
def shape (f : Frame α) : Nat × Nat := (f.rows.length, f.columns.length)

/-- A text with spaces in front of it up to a width. -/
def padded (width : Nat) (s : String) : String := String.ofList (s.toList.leftpad width ' ')

/-- Lines of right-aligned columns, each as wide as its widest text and one space from the next. -/
def aligned (lines : List (List String)) : String :=
  let widths := lines.map (·.map String.length)
  let width := widths.tail.foldl (List.zipWith max) (widths.headD [])
  "\n".intercalate (lines.map fun line => " ".intercalate (List.zipWith padded width line))

end Frame

namespace FrameLibrary

/-- Rows that are as long as the header are the rows of the frame. -/
def BuildsRowWise (lib : FrameLibrary) : Prop :=
  ∀ {α : Type} (columns : List String) (rows : List (List α)),
    (∀ row ∈ rows, row.length = columns.length) → lib.build columns rows = .ok (.full columns rows)

/-- Full rows of cells without blanks are written under these names in right-aligned columns. -/
def AlignsRight (lib : FrameLibrary) (columns : List String) : Prop :=
  ∀ rows : List (List String), rows ≠ [] → (∀ row ∈ rows, row.length = columns.length) →
    (∀ row ∈ rows, ∀ cell ∈ row, ∀ c ∈ cell.toList, Text.isBlank c = false) →
    lib.text (.full columns rows) = Frame.aligned (columns :: rows)

end FrameLibrary

end Sentential
