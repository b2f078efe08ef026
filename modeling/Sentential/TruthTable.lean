import Sentential.Assignment
import Sentential.Compilation
import Sentential.Frame
import Sentential.Text.TruthLetter
/-!
# Truth tables

The truth table of a formula has a column for each of its atoms, in the order of their first
occurrence, and a last column for the formula itself.  It has a row for every assignment, in the
order of the masks.  The table of a formula that does not compile has no columns and no rows and
carries the message.

A table may also be put together from any header and rows.  The results then fail if a row is empty,
and the frames if the library refuses the rows.
-/

namespace Sentential

structure TruthTable where
  header : List String
  rows : List (List Bool) := []
  error? : Option String := none
  deriving DecidableEq

/-- Why a table has no such view. -/
inductive TableError where
  | frame (message : String)
  | emptyRow

namespace TableError

def message : TableError → String
  | .frame message => message
  | .emptyRow => "tuple index out of range"

end TableError

namespace TruthTable

/-- The label of a formula without tokens. -/
def defaultLabel : String := "Expression"

/-- The columns before the last. -/
def atoms (t : TruthTable) : List String := t.header.dropLast

/-- The name of the last column. -/
def label (t : TruthTable) : String := t.header.getLast?.getD defaultLabel

private def lastCell (row : List Bool) : Except TableError Bool :=
  match row.getLast? with
  | some b => .ok b
  | none => .error .emptyRow

/-- The last column. -/
def results (t : TruthTable) : Except TableError (List Bool) := t.rows.mapM lastCell

theorem results_of_rows {α : Type} {t : TruthTable} {xs : List α} {front : α → List Bool}
    {last : α → Bool} (h : t.rows = xs.map fun x => front x ++ [last x]) :
    t.results = .ok (xs.map last) := by
  rw [results, h]
  clear h
  induction xs with
  | nil => rfl
  | cons x xs ih =>
    have hlast : lastCell (front x ++ [last x]) = .ok (last x) := by simp [lastCell]
    rw [List.map_cons, List.mapM_cons, hlast, ih]
    rfl

/-- Whether there are rows and the formula is true in all of them. -/
def isTautology (t : TruthTable) : Except TableError Bool := do
  return !t.rows.isEmpty && (← t.results).all id

/-- Whether there are rows and the formula is false in all of them. -/
def isContradiction (t : TruthTable) : Except TableError Bool := do
  return !t.rows.isEmpty && !(← t.results).any id

/-- Whether the formula is true in some row. -/
def isSatisfiable (t : TruthTable) : Except TableError Bool := do
  return (← t.results).any id

/-- The last column as zeros and ones. -/
def vector (t : TruthTable) : Except TableError (List Nat) := do
  return (← t.results).map Bool.toNat

/-- The table as a frame of truth values. -/
def frame (t : TruthTable) (lib : FrameLibrary) : Except TableError (Frame Bool) :=
  (lib.build t.header t.rows).mapError .frame

/-- The rows as letters. -/
def letters (t : TruthTable) : List (List String) := t.rows.map (·.map Text.truthLetter)

/-- The table as a frame of letters. -/
def letterFrame (t : TruthTable) (lib : FrameLibrary) : Except TableError (Frame String) :=
  (lib.build t.header t.letters).mapError .frame

/-- The table as text, or its message. -/
def text (t : TruthTable) (lib : FrameLibrary) : Except TableError String :=
  match t.error? with
  | some message => .ok ("Error: " ++ message)
  | none => return lib.text (← t.letterFrame lib)

end TruthTable

/-- The row of an assignment: the values of the atoms, then the value of the program. -/
def Program.tableRow (p : Program) (atoms : List String) (a : Assignment) : List Bool :=
  atoms.map a.valuation ++ [p.evaluate a.valuation]

namespace Alphabet

/-- The truth table of a formula. -/
def truthTable (a : Alphabet) (source : Source) : TruthTable :=
  let ts := a.tokens source
  let c := a.compileTokens ts
  match c.outcome with
  | .error e => { header := [], error? := some e.message }
  | .ok p =>
    { header := c.atoms ++ [if ts.isEmpty then TruthTable.defaultLabel else joinTokens ts]
      rows := (Assignment.all c.atoms).map (p.tableRow c.atoms) }

/-- Tabulates a formula, unless it is a text and none can be read in the alphabet. -/
def tabulate (a : Alphabet) (source : Source) : Except Text.TemplateError TruthTable := do
  let ts ← a.tokenize source
  return a.truthTable (.tokens ts)

end Alphabet

end Sentential
