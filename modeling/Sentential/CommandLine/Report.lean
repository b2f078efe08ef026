import Sentential.CommandLine.Arguments
import Sentential.FormulaGraph.Builder
import Sentential.Quantified.Query
import Sentential.Region.Classification
import Sentential.TruthTable
/-!
# What the command prints

The command compiles an expression and prints its truth table or, if it is asked for the diagram,
the regions that it shades.  On request the postfix program comes first.  Without an expression it
prints a short tour.  An expression that does not compile ends with status 1, arguments that cannot
be used with status 2.

The tables are written by a library of frames, and the world of the tour is drawn by a library of
random numbers.
-/

namespace Sentential

namespace CommandLine

/-- What a run of the command leaves behind. -/
structure Report where
  status : Nat := 0
  output : String := ""
  errors : String := ""
  deriving DecidableEq

private def lines (ls : List String) : String := String.join (ls.map (· ++ "\n"))

def usage : String := "usage: proplogic [-h] [--diagram] [--postfix] [expression]"

def help : String := lines [
  usage,
  "",
  "Compile a propositional formula and print its truth table.",
  "",
  "positional arguments:",
  "  expression  formula, e.g. '(P -> Q) ^ ~R'",
  "",
  "options:",
  "  -h, --help  show this help message and exit",
  "  --diagram   classify the two-set diagram regions (variables P, Q) instead",
  "  --postfix   also print the compiled postfix program"]

/-- The text of a table, or why it has none. -/
def tableText (frames : FrameLibrary) (t : TruthTable) : String :=
  match t.text frames with
  | .ok text => text
  | .error e => e.message

/-- The summary of the regions that a formula shades. -/
def regionText (a : Alphabet) (source : Source) : String :=
  match a.classify source with
  | .ok c =>
    match c.shading.summary .standard with
    | .ok text => text
    | .error e => e.message
  | .error e => e.message

/-! ## The tour -/

private def compiledLines (expression : String) : List String :=
  let c := Alphabet.builder.compile (.text expression)
  ("Formula: " ++ expression) ::
    match c.outcome with
    | .ok p => [
        "  variables: " ++ ", ".intercalate c.atoms,
        "  postfix:   " ++ p.postfixText,
        ""]
    | .error e => ["  error: " ++ e.message, ""]

private def truthText (b : Bool) : String := if b then "True" else "False"

private def tableLines (frames : FrameLibrary) (expression : String) : List String :=
  let t := Alphabet.builder.truthTable (.text expression)
  ["Truth table for " ++ expression ++ ":",
    tableText frames t,
    "Tautology: " ++ (match t.isTautology with
      | .ok b => truthText b
      | .error e => e.message),
    ""]

private def graphLines (expression : String) : List String :=
  match (Alphabet.builder.compile (.text expression)).program.graph with
  | .ok g =>
    ["Built formula graph for " ++ expression ++ " with " ++ toString g.nodes.length ++
      " nodes and " ++ toString g.edges.length ++ " edges", ""]
  | .error e => [e.message]

private def worldLines (random : RandomLibrary) : List String :=
  match World.generate random World.defaultCount (some 0) with
  | .ok w =>
    let query : ShapeQuery := ⟨.universal, .circle, .red⟩
    ["",
      query.text ++ " over a world of " ++ toString w.length ++ " items: " ++
        truthText (query.evaluate w)]
  | .error message => [message]

private def tautology : String := "~(P ^ Q) <-> (~P v ~Q)"

/-- A short tour of compiling, truth tables, graphs, diagrams and worlds. -/
def demo (frames : FrameLibrary) (random : RandomLibrary) : String := lines <|
  ["Demo: compiling and evaluating formulas", ""] ++
    ["P -> Q -> R", tautology, "P ^ (Q"].flatMap compiledLines ++
    tableLines frames tautology ++
    graphLines "(P ^ Q) -> ~R" ++
    (["P and Q", "P or Q", "P implies Q"].map fun expression =>
      "Diagram for " ++ expression ++ ": " ++
        regionText Alphabet.diagram (.text expression)) ++
    worldLines random

/-! ## The command -/

/-- What the command prints of an expression. -/
def reportFormula (frames : FrameLibrary) (expression : String) (diagram program : Bool) : Report :=
  let a := if diagram then Alphabet.diagram else Alphabet.builder
  let source := Source.text expression
  match (a.compile source).outcome with
  | .error e => { status := 1, output := lines ["Error: " ++ e.message] }
  | .ok p =>
    { output := lines <|
        (if program then ["Postfix: " ++ p.postfixText] else []) ++
          [if diagram then regionText a source else tableText frames (a.truthTable source)] }

section

variable {frames : FrameLibrary} {expression : String} {diagram : Bool}
variable {e : CompileError} {p : Program}

theorem reportFormula_of_error (program : Bool)
    (h : ((if diagram then Alphabet.diagram else Alphabet.builder).compile
      (.text expression)).outcome = .error e) :
    reportFormula frames expression diagram program =
      { status := 1, output := "Error: " ++ e.message ++ "\n" } := by
  simp [reportFormula, h, lines]

theorem reportFormula_of_ok (frames : FrameLibrary) (program : Bool)
    (h : ((if diagram then Alphabet.diagram else Alphabet.builder).compile
      (.text expression)).outcome = .ok p) :
    reportFormula frames expression diagram program =
      { output :=
          (if program then "Postfix: " ++ p.postfixText ++ "\n" else "") ++
            (if diagram then regionText .diagram (.text expression)
              else tableText frames (Alphabet.builder.truthTable (.text expression))) ++
            "\n" } := by
  cases diagram <;> cases program <;> simp_all [reportFormula, lines, String.append_assoc]

end

/-- Runs the command. -/
def run (frames : FrameLibrary) (random : RandomLibrary) (arguments : List String) : Report :=
  match read arguments with
  | .ok .help => { output := help }
  | .ok .demo => { output := demo frames random }
  | .ok (.formula expression diagram program) => reportFormula frames expression diagram program
  | .error e => { status := 2, errors := lines [usage, "proplogic: error: " ++ e.message] }

end CommandLine

end Sentential
