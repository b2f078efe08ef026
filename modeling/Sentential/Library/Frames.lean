import Sentential.Frame
/-!
# A library of frames

The frames with which the command runs.  Rows that are shorter than the longest one are filled up
with missing cells; the longest row must have as many cells as there are columns.

As text, the cells of a column end where its name ends, and a tab, a newline or a return in a name
is shown as a backslash and a letter.  As many blank characters as every name has in front are left
out of all of them.
-/

namespace Sentential

namespace Frame

variable {α : Type}

/-- The length of the longest row. -/
def longest (rows : List (List α)) : Nat := rows.foldl (fun n row => max n row.length) 0

/-- A row of cells with missing ones added up to a length. -/
def fill (width : Nat) (row : List α) : List (Option α) :=
  (row.map some).rightpad width none

/-- The frame with the given rows. -/
def ofRows (columns : List String) (rows : List (List α)) : Except String (Frame α) :=
  if rows.isEmpty || longest rows = columns.length then
    .ok ⟨columns, rows.map (fill columns.length)⟩
  else
    .error (toString columns.length ++ " columns passed, passed data had " ++
      toString (longest rows) ++ " columns")

/-- How a column's name is shown. -/
def shownName (name : String) : String :=
  String.ofList (name.toList.flatMap fun c =>
    if c = '\t' then ['\\', 't']
    else if c = '\n' then ['\\', 'n']
    else if c = '\r' then ['\\', 'r']
    else [c])

/-- The number of blank characters in front of a text. -/
def indentation (s : String) : Nat := (s.toList.takeWhile Text.isBlank).length

/-- Names without as many blank characters as every one of them has in front. -/
def outdented (names : List String) : List String :=
  let common := (names.map indentation).min?.getD 0
  names.map fun s => String.ofList (s.toList.drop common)

/-- At most this many names are listed of a frame without cells. -/
def listedNames : Nat := 100

/-- What stands for a frame without cells. -/
def emptyText (columns : List String) : String :=
  let names := columns.take listedNames ++ if listedNames < columns.length then ["..."] else []
  "Empty DataFrame\nColumns: [" ++ ", ".intercalate names ++ "]\nIndex: []"

/-- What stands for a missing cell. -/
def missingText : String := "NaN"

/-- The frame as text: a line of column names and a line for each row. -/
def text (f : Frame String) : String :=
  if f.rows.isEmpty || f.columns.isEmpty then emptyText f.columns
  else aligned (outdented (f.columns.map shownName) :: f.rows.map (·.map (·.getD missingText)))

end Frame

def FrameLibrary.standard : FrameLibrary where
  build := Frame.ofRows
  text := Frame.text

end Sentential
