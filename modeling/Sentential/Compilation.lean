import Sentential.Program
import Sentential.Token
/-!
# Compiling a formula by operator precedence

The compiler reads the tokens once, from left to right.  Atoms are emitted at once; connectives
and opening parentheses wait on a stack.  A connective first releases the waiting connectives to
which it yields, down to the nearest opening parenthesis; a closing parenthesis releases everything
down to its partner; the end of the tokens releases the rest.

Only unknown tokens and unbalanced parentheses are errors of a formula.  A connective without
operands compiles.
-/

namespace Sentential

open Text

/-- Why a formula does not compile. -/
inductive CompileError where
  | unknownToken (token : String)
  | mismatchedParentheses
  deriving DecidableEq

namespace CompileError

def message : CompileError → String
  | .unknownToken token => "Unknown token: " ++ token
  | .mismatchedParentheses => "Mismatched parentheses"

end CompileError

/-- The atoms seen, in the order of their first occurrence, and the program or what went wrong.
The atoms of a formula that fails are those before the failure. -/
structure Compilation where
  atoms : List String
  outcome : Except CompileError Program

namespace Compilation

/-- The compiled program, which is empty after a failure. -/
def program (c : Compilation) : Program :=
  match c.outcome with
  | .ok p => p
  | .error _ => []

def error? (c : Compilation) : Option CompileError :=
  match c.outcome with
  | .ok _ => none
  | .error e => some e

theorem program_of_outcome {c : Compilation} {p : Program} (h : c.outcome = .ok p) :
    c.program = p := by
  rw [program, h]

end Compilation

/-- What waits on the compiler's stack. -/
inductive Waiting where
  | connective (c : Connective)
  | opening
  deriving DecidableEq

/-- The compiler between two tokens: the waiting stack with its top first, the instructions emitted
so far, and the atoms seen so far. -/
structure Compiler where
  waiting : List Waiting := []
  emitted : Program := []
  seen : List String := []
  deriving DecidableEq

namespace Compiler

/-- Splits the waiting stack into the connectives that an incoming one releases and the rest. -/
def release (incoming : Connective) : List Waiting → Program × List Waiting
  | .connective c :: rest =>
    if incoming.yieldsTo c then
      let (released, kept) := release incoming rest
      (.apply c :: released, kept)
    else ([], .connective c :: rest)
  | waiting => ([], waiting)

/-- Splits the waiting stack at the topmost opening parenthesis, which is dropped. -/
def closeGroup : List Waiting → Option (Program × List Waiting)
  | [] => none
  | .opening :: rest => some ([], rest)
  | .connective c :: rest =>
    (closeGroup rest).map fun (released, kept) => (.apply c :: released, kept)

/-- Releases the whole waiting stack, unless an opening parenthesis is left in it. -/
def releaseAll : List Waiting → Option Program
  | [] => some []
  | .opening :: _ => none
  | .connective c :: rest => (releaseAll rest).map (.apply c :: ·)

/-- Adds an atom to those seen, unless it is among them. -/
def note (seen : List String) (name : String) : List String :=
  if seen.contains name then seen else seen ++ [name]

/-- Reads one token. -/
def step (σ : Compiler) : Symbol → Except CompileError Compiler
  | .atom name =>
    .ok { σ with emitted := σ.emitted ++ [.push name], seen := note σ.seen name }
  | .connective c =>
    let (released, kept) := release c σ.waiting
    .ok { σ with waiting := .connective c :: kept, emitted := σ.emitted ++ released }
  | .opening => .ok { σ with waiting := .opening :: σ.waiting }
  | .closing =>
    match closeGroup σ.waiting with
    | some (released, kept) => .ok { σ with waiting := kept, emitted := σ.emitted ++ released }
    | none => .error .mismatchedParentheses
  | .unknown token => .error (.unknownToken token)

/-- Reads tokens until one fails; the state is the one before the failing token. -/
def run : Compiler → List Symbol → Compiler × Option CompileError
  | σ, [] => (σ, none)
  | σ, s :: rest =>
    match σ.step s with
    | .ok σ' => run σ' rest
    | .error e => (σ, some e)

/-- The program at the end of the tokens. -/
def finish (σ : Compiler) : Except CompileError Program :=
  match releaseAll σ.waiting with
  | some released => .ok (σ.emitted ++ released)
  | none => .error .mismatchedParentheses

end Compiler

namespace Alphabet

/-- Compiles a list of tokens. -/
def compileTokens (a : Alphabet) (ts : List String) : Compilation :=
  match Compiler.run {} (ts.map a.symbol) with
  | (σ, none) => ⟨σ.seen, σ.finish⟩
  | (σ, some e) => ⟨σ.seen, .error e⟩

/-- Compiles a formula. -/
def compile (a : Alphabet) (source : Source) : Compilation := a.compileTokens (a.tokens source)

/-- Compiles a formula, unless it is a text and none can be read in the alphabet. -/
def compileSource (a : Alphabet) (source : Source) : Except TemplateError Compilation :=
  (a.tokenize source).map a.compileTokens

end Alphabet

end Sentential
