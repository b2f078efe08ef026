import Sentential.Text.Digit
import Sentential.Text.Quoted
/-!
# Command line arguments

The command takes one optional expression and three flags.  A long flag may be shortened as long
as it stays unambiguous.  An argument that begins with a dash is still an expression if it is a
dash alone, looks like a negative number, or holds a space and is no flag.  After `--` every
argument is an expression.

Arguments are classified before any is acted upon, so an ambiguous flag is reported first.  Help
ends the reading at once; what is left over is reported at the end.
-/

namespace Sentential

namespace CommandLine

inductive Flag where
  | help
  | diagram
  | program
  deriving DecidableEq

namespace Flag

/-- The spellings of all flags, in the order in which they are looked up. -/
def spellings : List (String × Flag) :=
  [("-h", .help), ("--help", .help), ("--diagram", .diagram), ("--postfix", .program)]

/-- How a flag is named in a message. -/
def title (f : Flag) : String :=
  "/".intercalate ((spellings.filter fun s => s.2 = f).map (·.1))

end Flag

/-- What a single argument is.  A flag may have a value attached to it, and a short flag other
letters. -/
inductive Argument where
  | operand (text : String)
  | flag (f : Flag)
  | flagWithValue (f : Flag) (value : String)
  | flagWithLetters (f : Flag) (letters : List Char)
  | ambiguous (text : String) (candidates : List String)
  | unrecognized (text : String)
  deriving DecidableEq

/-- Why the arguments cannot be used. -/
inductive UsageError where
  | unrecognized (arguments : List String)
  | ignoredValue (f : Flag) (value : String)
  | ambiguous (text : String) (candidates : List String)
  deriving DecidableEq

namespace UsageError

def message : UsageError → String
  | .unrecognized arguments => "unrecognized arguments: " ++ " ".intercalate arguments
  | .ignoredValue f value =>
    "argument " ++ f.title ++ ": ignored explicit argument " ++ Text.quoted value
  | .ambiguous text candidates =>
    "ambiguous option: " ++ text ++ " could match " ++ ", ".intercalate candidates

end UsageError

/-- Whether a text is a number with a minus sign: digits, or digits around a point of which those
after it must not be missing.  A newline may follow. -/
def looksNegative (s : List Char) : Bool :=
  let s := if s.getLast? = some '\n' then s.dropLast else s
  match s with
  | '-' :: number =>
    match number.dropWhile Text.isDecimalDigit with
    | [] => !number.isEmpty
    | '.' :: decimals => !decimals.isEmpty && decimals.all Text.isDecimalDigit
    | _ => false
  | _ => false

/-- The part of an argument before the first equals sign, and the value after it. -/
def splitValue (s : List Char) : List Char × Option (List Char) :=
  match s.dropWhile (· != '=') with
  | _ :: value => (s.takeWhile (· != '='), some value)
  | [] => (s, none)

private def withValue (f : Flag) : Option (List Char) → Argument
  | some value => .flagWithValue f (String.ofList value)
  | none => .flag f

private def withoutFlag (text : String) : Argument :=
  if looksNegative text.toList || text.toList.contains ' ' then .operand text
  else .unrecognized text

/-- An argument that begins with two dashes and is not the full spelling of a flag. -/
def classifyLong (text : String) : Argument :=
  let (stem, value) := splitValue text.toList
  match Flag.spellings.filter fun s => stem.isPrefixOf s.1.toList with
  | [] => withoutFlag text
  | [(_, f)] => withValue f value
  | candidates => .ambiguous text (candidates.map (·.1))

/-- An argument that begins with one dash and a letter. -/
def classifyShort (text : String) : Argument :=
  match Flag.spellings.lookup (String.ofList (text.toList.take 2)) with
  | some f => .flagWithLetters f (text.toList.drop 2)
  | none => withoutFlag text

/-- What an argument before `--` is. -/
def classify (text : String) : Argument :=
  match Flag.spellings.lookup text with
  | some f => .flag f
  | none =>
    match text.toList with
    | '-' :: second :: _ =>
      let (stem, value) := splitValue text.toList
      match Flag.spellings.lookup (String.ofList stem), value with
      | some f, some value =>
        if second = '-' then .flagWithValue f (String.ofList value)
        else if value.isEmpty then .flagWithValue f "" else .flagWithLetters f value
      | _, _ => if second = '-' then classifyLong text else classifyShort text
    | _ => .operand text

/-- What the command is asked to do. -/
inductive Request where
  | help
  | demo
  | formula (expression : String) (diagram program : Bool)
  deriving DecidableEq

/-- Whether an expression is still wanted.  `justTaken` says that it was the last argument. -/
inductive Slot where
  | wanted
  | justTaken
  | taken
  deriving DecidableEq

/-- What has been read of the arguments. -/
structure Reading where
  expression : Option String := none
  slot : Slot := .wanted
  diagram : Bool := false
  program : Bool := false
  leftover : List String := []
  deriving DecidableEq

namespace Reading

/-- The slot after an argument that is not the expression. -/
def passed (r : Reading) : Reading :=
  { r with slot := if r.slot = .wanted then .wanted else .taken }

/-- Takes an argument as the expression if one is still wanted. -/
def takeOperand (r : Reading) (text : String) : Reading :=
  match r.slot with
  | .wanted => { r with expression := some text, slot := .justTaken }
  | _ => { r.passed with leftover := r.leftover ++ [text] }

/-- Takes the arguments after `--`.  The mark itself is left over if the expression was taken and
other arguments followed it. -/
def takeRest (r : Reading) (rest : List String) : Reading :=
  match r.slot, rest with
  | .wanted, [] => r
  | .wanted, text :: rest =>
    { r with expression := some text, slot := .taken, leftover := r.leftover ++ rest }
  | .justTaken, rest => { r with leftover := r.leftover ++ rest }
  | .taken, rest => { r with leftover := r.leftover ++ "--" :: rest }

/-- What is asked for when all arguments have been read. -/
def finish (r : Reading) : Except UsageError Request :=
  if !r.leftover.isEmpty then .error (.unrecognized r.leftover)
  else match r.expression with
    | some expression => .ok (.formula expression r.diagram r.program)
    | none => .ok .demo

end Reading

/-- Reads the remaining arguments. -/
def readFrom (r : Reading) : List String → Except UsageError Request
  | [] => r.finish
  | text :: rest =>
    if text = "--" then (r.takeRest rest).finish
    else match classify text with
      | .operand text => readFrom (r.takeOperand text) rest
      | .flag .help => .ok .help
      | .flag .diagram => readFrom { r.passed with diagram := true } rest
      | .flag .program => readFrom { r.passed with program := true } rest
      | .flagWithValue f value => .error (.ignoredValue f value)
      | .flagWithLetters f letters =>
        match letters.dropWhile (· == 'h') with
        | [] => .ok .help
        | others => .error (.ignoredValue f (String.ofList others))
      | .ambiguous text candidates => .error (.ambiguous text candidates)
      | .unrecognized text => readFrom { r.passed with leftover := r.leftover ++ [text] } rest

/-- The first ambiguous argument before `--`. -/
def firstAmbiguous : List String → Option UsageError
  | [] => none
  | text :: rest =>
    if text = "--" then none
    else match classify text with
      | .ambiguous text candidates => some (.ambiguous text candidates)
      | _ => firstAmbiguous rest

/-- Reads the arguments of the command. -/
def read (arguments : List String) : Except UsageError Request :=
  match firstAmbiguous arguments with
  | some e => .error e
  | none => readFrom {} arguments

end CommandLine

end Sentential
