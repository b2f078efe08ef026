import Sentential.Text.Blank
import Sentential.Text.Digit
import Sentential.Text.Identifier
import Sentential.Text.Quoted
/-!
# Templates

What takes the place of a text that was found is written as a template.  A backslash belongs to the
character behind it: the two stand for a control character, for the character with an octal number,
for the text that was found, or, if that character is neither a letter nor a digit, for themselves.
Every other character stands for itself.

Not every text is a template.  One that is none is refused with the place where reading it stops,
whether or not anything is found for it to replace.
-/

namespace Sentential.Text

/-- A part of a template: a character, or the place of the text that was found. -/
inductive Piece where
  | char (c : Char)
  | found
  deriving DecidableEq

/-- What takes the place of a text that was found. -/
structure Template where
  pieces : List Piece
  deriving DecidableEq

namespace Template

/-- The template in which every character stands for itself. -/
def literal (s : List Char) : Template := ⟨s.map .char⟩

/-- The template with the text that was found in its places. -/
def fill (t : Template) (found : List Char) : List Char :=
  t.pieces.flatMap fun
    | .char c => [c]
    | .found => found

@[simp] theorem fill_literal (s found : List Char) : (literal s).fill found = s := by
  simp [fill, literal, List.flatMap_map]

theorem fill_ne_nil {t : Template} {found : List Char} (ht : t.pieces ≠ []) (hfound : found ≠ []) :
    t.fill found ≠ [] := by
  obtain ⟨piece, pieces, hpieces⟩ := List.exists_cons_of_ne_nil ht
  rw [fill, hpieces, List.flatMap_cons]
  apply List.append_ne_nil_of_left_ne_nil
  cases piece with
  | char c => exact List.cons_ne_nil c []
  | found => exact hfound

end Template

/-! ## Refusals -/

/-- What is wrong with a template. -/
inductive TemplateFault where
  | looseBackslash
  | letter (c : Char)
  | largeOctal (digits : List Char)
  | noOpening
  | noName
  | noClosing
  | badName (name : List Char)
  | unknownName (name : List Char)
  | group (number : Nat)
  deriving DecidableEq

namespace TemplateFault

def message : TemplateFault → String
  | looseBackslash => "bad escape (end of pattern)"
  | letter c => "bad escape \\" ++ String.singleton c
  | largeOctal digits =>
    "octal escape value \\" ++ String.ofList digits ++ " outside of range 0-0o377"
  | noOpening => "missing <"
  | noName => "missing group name"
  | noClosing => "missing >, unterminated name"
  | badName name => "bad character in group name " ++ quoted (String.ofList name)
  | unknownName name => "unknown group name " ++ quoted (String.ofList name)
  | group number => "invalid group reference " ++ toString number

end TemplateFault

/-- A text that is no template, and the place to which the fault is traced. -/
structure TemplateError where
  text : List Char
  fault : TemplateFault
  position : Nat
  deriving DecidableEq

namespace TemplateError

/-- The line and the column of a place, told of texts with several lines only. -/
private def lineText (s : List Char) (position : Nat) : String :=
  let before := s.take position
  if s.contains '\n' then
    " (line " ++ toString (before.count '\n' + 1) ++ ", column " ++
      toString ((before.reverse.takeWhile (· ≠ '\n')).length + 1) ++ ")"
  else ""

def message (e : TemplateError) : String :=
  match e.fault with
  | .unknownName _ => e.fault.message
  | fault =>
    fault.message ++ " at position " ++ toString e.position ++ lineText e.text e.position

end TemplateError

/-! ## Reading -/

namespace Template

/-- What is read at once: a character, a backslash with the character behind it, or a backslash with
which the text ends. -/
inductive Mark where
  | plain (c : Char)
  | escape (c : Char)
  | loose
  deriving DecidableEq

def Mark.chars : Mark → List Char
  | plain c => [c]
  | escape c => ['\\', c]
  | loose => ['\\']

def marks : List Char → List Mark
  | [] => []
  | c :: rest =>
    if c = '\\' then
      match rest with
      | [] => [.loose]
      | d :: rest => .escape d :: marks rest
    else .plain c :: marks rest

/-- A fault and its place. -/
abbrev Reading (α : Type) := Except (TemplateFault × Nat) α

/-- What begins at some mark: how many of the marks behind it belong to it, and what it stands
for. -/
structure Group where
  width : Nat
  outcome : Reading (List Piece)

/-- The plain characters of a kind with which some marks begin. -/
def leading (p : Char → Bool) : List Mark → List Char
  | .plain c :: rest => if p c then c :: leading p rest else []
  | _ => []

def isOctal (c : Char) : Bool := '0' ≤ c && c ≤ '7'

/-- The value of digits to a base. -/
def valueOf (base : Nat) (digits : List Char) : Nat :=
  digits.foldl (fun n c => base * n + digitValue c) 0

/-- A number behind a backslash is octal if it begins with a zero or has three octal digits.  Any
other is that of a group, and there are none. -/
def numberGroup (start : Nat) (first : Char) (rest : List Mark) : Group :=
  if first = '0' then
    let digits := (leading isOctal rest).take 2
    ⟨digits.length, .ok [.char (Char.ofNat (valueOf 8 digits))]⟩
  else
    let digits := first :: (leading Char.isDigit rest).take 2
    if digits.length = 3 && digits.all isOctal then
      ⟨2, if 0o377 < valueOf 8 digits then .error (.largeOctal digits, start)
        else .ok [.char (Char.ofNat (valueOf 8 digits))]⟩
    else
      let digits := digits.take 2
      ⟨digits.length - 1, .error (.group (valueOf 10 digits), start + 1)⟩

/-- The most digits that a number may have. -/
def mostDigits : Nat := 4300

/-- The number that a name stands for: a whole number that is not negative, with digits of any
script, a sign if need be, an underscore between two digits, and blanks around it. -/
def numberOf? (name : List Char) : Option Nat :=
  let isSpace (c : Char) : Bool := isBlank c && !(0x1c ≤ c.toNat && c.toNat ≤ 0x1f)
  let trimmed := ((name.dropWhile isSpace).reverse.dropWhile isSpace).reverse
  let (negative, digits) : Bool × List Char := match trimmed with
    | '-' :: digits => (true, digits)
    | '+' :: digits => (false, digits)
    | digits => (false, digits)
  let parts := digits.splitOn '_'
  let value := valueOf 10 parts.flatten
  if parts.all (fun part => !part.isEmpty && part.all isDecimalDigit) &&
      parts.flatten.length ≤ mostDigits && !(negative && value ≠ 0) then some value
  else none

/-- What the name of a group stands for.  There is only group zero, the text that was found. -/
def namedGroup (name : List Char) : Except TemplateFault (List Piece) :=
  if isIdentifier name then .error (.unknownName name)
  else match numberOf? name with
    | some 0 => .ok [.found]
    | some n => .error (.group n)
    | none => .error (.badName name)

/-- The name of a group stands in angle brackets. -/
def referenceGroup (start : Nat) : List Mark → Group
  | .plain '<' :: rest =>
    let inner := rest.takeWhile fun m => m ≠ .plain '>' && m ≠ .loose
    let closed := (rest.drop inner.length).head? = some (.plain '>')
    let outcome :=
      if inner.isEmpty then .error .noName
      else if closed then namedGroup (inner.flatMap Mark.chars)
      else .error .noClosing
    ⟨inner.length + (if closed then 2 else 1), outcome.mapError (·, start + 3)⟩
  | _ => ⟨0, .error (.noOpening, start + 2)⟩

/-- The character for which a backslash and a letter or a second backslash stand. -/
def controlChar? : Char → Option Char
  | 'a' => some '\x07'
  | 'b' => some '\x08'
  | 'f' => some '\x0c'
  | 'n' => some '\n'
  | 'r' => some '\r'
  | 't' => some '\t'
  | 'v' => some '\x0b'
  | '\\' => some '\\'
  | _ => none

/-- What a backslash stands for with a character that is neither a digit nor the letter of a
reference. -/
def escaped (start : Nat) (c : Char) : Reading (List Piece) :=
  match controlChar? c with
  | some d => .ok [.char d]
  | none => if c.isAlpha then .error (.letter c, start) else .ok [.char '\\', .char c]

/-- What begins at a mark, of which `start` is the place. -/
def group (start : Nat) (m : Mark) (rest : List Mark) : Group :=
  match m with
  | .plain c => ⟨0, .ok [.char c]⟩
  | .loose => ⟨0, .error (.looseBackslash, start)⟩
  | .escape c =>
    if c = 'g' then referenceGroup start rest
    else if c.isDigit then numberGroup start c rest
    else ⟨0, escaped start c⟩

/-- Reads the rest of a template, of which the first `skip` marks belong to what has been read.  A
backslash at the end is found out as soon as the mark in front of it has been taken. -/
def readFrom : Nat → Nat → List Mark → Reading (List Piece)
  | _, _, [] => .ok []
  | skip + 1, start, m :: rest => readFrom skip (start + m.chars.length) rest
  | 0, start, m :: rest => do
    let g := group start m rest
    if rest.drop g.width = [.loose] then
      throw (.looseBackslash, start + ((m :: rest.take g.width).flatMap Mark.chars).length)
    let pieces ← g.outcome
    return pieces ++ (← readFrom g.width (start + m.chars.length) rest)

/-- Reads a template. -/
def read (s : List Char) : Except TemplateError Template :=
  match readFrom 0 0 (marks s) with
  | .ok pieces => .ok ⟨pieces⟩
  | .error (fault, position) => .error ⟨s, fault, position⟩

end Template

end Sentential.Text
