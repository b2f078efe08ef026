import Sentential.Machine
import Sentential.Number.Numeral
import Sentential.Text.Quoted
/-!
# Plain values

The values that an atom may be given, and that may stand where an instruction is expected.
Every value counts as true or false: nothing, zero, and what is empty are false.  A value can be
written out; a text is then quoted.
-/

namespace Sentential

/-- A plain value. -/
inductive Value where
  | nothing
  | truth (b : Bool)
  | number (n : Numeral)
  | text (s : String)
  | list (items : List Value)
  | record (fields : List (String × Value))
  deriving Inhabited

namespace Value

/-- Whether the value counts as true. -/
def isTrue : Value → Bool
  | .nothing => false
  | .truth b => b
  | .number n => !n.isZero
  | .text s => !s.isEmpty
  | .list items => !items.isEmpty
  | .record fields => !fields.isEmpty

mutual

/-- The value written out. -/
def written : Value → String
  | .nothing => "None"
  | .truth b => if b then "True" else "False"
  | .number n => n.written
  | .text s => Text.quoted s
  | .list items => "[" ++ ", ".intercalate (writtenItems items) ++ "]"
  | .record fields => "\x7b" ++ ", ".intercalate (writtenFields fields) ++ "\x7d"

def writtenItems : List Value → List String
  | [] => []
  | v :: rest => v.written :: writtenItems rest

def writtenFields : List (String × Value) → List String
  | [] => []
  | (key, v) :: rest => (Text.quoted key ++ ": " ++ v.written) :: writtenFields rest

end

/-- The value as it stands in running text, where a text is not quoted. -/
def shown : Value → String
  | .text s => s
  | v => v.written

end Value

/-- Values for some atoms.  An atom without one is false. -/
abbrev Mapping := List (String × Value)

namespace Mapping

def valuation (m : Mapping) : Valuation := fun name => (m.lookup name).any Value.isTrue

end Mapping

end Sentential
