import Sentential.Connective
import Sentential.Spelling
import Sentential.Text.Blank
/-!
# Tokens

A text is split into tokens from left to right.  At each place the first of these that fits is the
next token: an atom, in the order of the alphabet; a glyph or a parenthesis; a run of word
characters; any single character that is not blank.  Blank characters are skipped.  Splitting
rejects nothing: what no rule of the language covers becomes a token of its own.  A text has whole
characters only, and half of a surrogate pair is none.

An alphabet may list the empty text as an atom.  It is then found once at every place where no
atom listed before it fits, and the splitting goes on with the first alternative that is not
empty.
-/

namespace Sentential

open Text

/-- What a token stands for.  Every text that is no atom, glyph or parenthesis is unknown. -/
inductive Symbol where
  | atom (name : String)
  | connective (c : Connective)
  | opening
  | closing
  | unknown (text : String)
  deriving DecidableEq

/-- Where the tokens of a formula come from: nowhere, a text, or a list that is taken as it is. -/
inductive Source where
  | missing
  | text (s : String)
  | tokens (ts : List String)

namespace Alphabet

/-- What a token stands for.  The atoms come first, even one that looks like a glyph or a
parenthesis. -/
def symbol (a : Alphabet) (token : String) : Symbol :=
  if a.isAtom token then .atom token
  else match Connective.ofText? token with
    | some c => .connective c
    | none =>
      if token = "(" then .opening
      else if token = ")" then .closing
      else .unknown token

/-- The atom with which a text begins, the first in the order of the alphabet. -/
def leadingAtom? (a : Alphabet) (s : List Char) : Option String :=
  a.atoms.find? (fun name => name.toList.isPrefixOf s)

/-- The characters that are tokens wherever they stand. -/
def isMark (c : Char) : Bool := c == '(' || c == ')' || Connective.all.any (fun d => d.glyph == c)

/-- The token with which a text begins, as long as it is not empty. -/
def leadingToken? (a : Alphabet) (s : List Char) : Option (List Char) :=
  match (a.atoms.filter (!·.isEmpty)).find? (fun name => name.toList.isPrefixOf s) with
  | some name => some name.toList
  | none =>
    match s with
    | [] => none
    | c :: _ =>
      if isMark c then some [c]
      else if isWord c then some (s.takeWhile isWord)
      else if isBlank c then none
      else some [c]

/-- The empty token, where the alphabet has it and no other atom comes first. -/
def emptyTokens (a : Alphabet) (s : List Char) : List String :=
  match a.leadingAtom? s with
  | some name => if name.isEmpty then [""] else []
  | none => []

/-- Splits the rest of a text, of which the first `skip` characters belong to the last token. -/
def splitFrom (a : Alphabet) : Nat → List Char → List String
  | _, [] => a.emptyTokens []
  | skip + 1, _ :: rest => a.splitFrom skip rest
  | 0, c :: rest =>
    a.emptyTokens (c :: rest) ++
      match a.leadingToken? (c :: rest) with
      | some token => String.ofList token :: a.splitFrom (token.length - 1) rest
      | none => a.splitFrom 0 rest

/-- Splits a text whose connectives are written as glyphs. -/
def split (a : Alphabet) (s : List Char) : List String := a.splitFrom 0 s

theorem splitFrom_eq_split_drop (a : Alphabet) (skip : Nat) (s : List Char) :
    a.splitFrom skip s = a.split (s.drop skip) := by
  induction skip generalizing s with
  | zero => rfl
  | succ skip ih =>
    cases s with
    | nil => rfl
    | cons c rest => exact ih rest

theorem split_cons (a : Alphabet) (c : Char) (rest : List Char) :
    a.split (c :: rest) = a.emptyTokens (c :: rest) ++
      match a.leadingToken? (c :: rest) with
      | some token => String.ofList token :: a.split (rest.drop (token.length - 1))
      | none => a.split rest := by
  rw [split, splitFrom]
  cases a.leadingToken? (c :: rest) with
  | none => rfl
  | some token => simp [splitFrom_eq_split_drop]

/-- The tokens of a formula.  An empty text has none, even if the empty text is an atom. -/
def tokens (a : Alphabet) : Source → List String
  | .missing => []
  | .text s => if s.isEmpty then [] else a.split (a.canonical s.toList)
  | .tokens ts => ts

/-- Splits a formula into tokens, unless it is a text and none can be read in the alphabet. -/
def tokenize (a : Alphabet) : Source → Except TemplateError (List String)
  | .missing => .ok []
  | .text s =>
    if s.isEmpty then .ok []
    else do
      let canonical ← a.normalize s
      return a.split canonical.toList
  | .tokens ts => .ok ts

end Alphabet

/-- Tokens as one text, with a space between neighbours. -/
def joinTokens (ts : List String) : String := " ".intercalate ts

end Sentential
