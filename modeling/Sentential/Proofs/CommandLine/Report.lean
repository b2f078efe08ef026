import Sentential.CommandLine.Report
import Sentential.Library.Random
import Sentential.Proofs.CommandLine.Arguments
import Sentential.Proofs.Frame
import Sentential.Proofs.Library.Frames
import Sentential.Proofs.Region.Classification
/-!
# What the command prints of an expression

The command compiles an expression once for its status and its postfix text and once more for the
table or the regions.  Both times the alphabet is the same, so what is printed after the postfix
text is never a message.
-/

namespace Sentential

namespace CommandLine

/-- The alphabet in which the command reads expressions. -/
def alphabet (diagram : Bool) : Alphabet := if diagram then .diagram else .builder

/-- What the command shows of an expression without errors: the regions, or the table. -/
inductive Shows (frames : FrameLibrary) (expression : String) : Bool → String → Prop
  | regions {c : Classification} {text : String} :
      Alphabet.diagram.classify (.text expression) = .ok c → c.error? = none →
      c.shading.summary .standard = .ok text → Shows frames expression true text
  | table {text : String} :
      (Alphabet.builder.truthTable (.text expression)).error? = none →
      (Alphabet.builder.truthTable (.text expression)).text frames = .ok text →
      Shows frames expression false text

variable {frames : FrameLibrary} {random : RandomLibrary} {e : String} {p : Program}

theorem exists_shows_regions (h : (Alphabet.diagram.compile (.text e)).outcome = .ok p) :
    ∃ text, Shows frames e true text ∧ regionText .diagram (.text e) = text := by
  have hclassify : Alphabet.diagram.classify (.text e) = .ok { shading := p.shading "P" "Q" } :=
    Alphabet.classify_of_outcome rfl h
  obtain ⟨text, hsummary⟩ : ∃ text, (p.shading "P" "Q").summary .standard = .ok text := ⟨_, rfl⟩
  refine ⟨text, .regions hclassify rfl hsummary, ?_⟩
  rw [regionText, hclassify]
  simp only [hsummary]

theorem exists_shows_table (hframes : frames.BuildsRowWise)
    (h : (Alphabet.builder.compile (.text e)).outcome = .ok p) :
    ∃ text, Shows frames e false text ∧
      tableText frames (Alphabet.builder.truthTable (.text e)) = text := by
  have htext := Alphabet.text_truthTable hframes h
  have hnone : (Alphabet.builder.truthTable (.text e)).error? = none := by
    rw [Alphabet.truthTable_of_outcome h]
  refine ⟨_, .table hnone htext, ?_⟩
  rw [tableText, htext]

theorem exists_reportFormula_of_ok (hframes : frames.BuildsRowWise) {diagram : Bool}
    (program : Bool) (h : ((alphabet diagram).compile (.text e)).outcome = .ok p) :
    ∃ text, Shows frames e diagram text ∧
      reportFormula frames e diagram program =
        { status := 0
          output := (if program then "Postfix: " ++ p.postfixText ++ "\n" else "") ++ text ++ "\n"
          errors := "" } := by
  have hreport := reportFormula_of_ok frames program h
  cases diagram with
  | true =>
      obtain ⟨text, hshows, htext⟩ := exists_shows_regions h
      rw [if_pos rfl, htext] at hreport
      exact ⟨text, hshows, hreport⟩
  | false =>
      obtain ⟨text, hshows, htext⟩ := exists_shows_table hframes h
      rw [if_neg Bool.false_ne_true, htext] at hreport
      exact ⟨text, hshows, hreport⟩

/-- The command on one expression and any flags.  The report depends on the expression and on which
flags there are.  Of an expression that does not compile it is the message alone; of one that does
it is the postfix text, if that is asked for, and then the regions or the table. -/
theorem run_expression (hframes : frames.BuildsRowWise) (random : RandomLibrary) {e : String}
    (he : e.toList.head? ≠ some '-') {before after : List String}
    (hflags : ∀ flag ∈ before ++ after, flag = "--diagram" ∨ flag = "--postfix")
    {diagram program : Bool} (hdiagram : diagram = true ↔ "--diagram" ∈ before ++ after)
    (hprogram : program = true ↔ "--postfix" ∈ before ++ after) :
    run frames random (before ++ e :: after) = reportFormula frames e diagram program ∧
    (∀ error, ((alphabet diagram).compile (.text e)).outcome = .error error →
      run frames random (before ++ e :: after) =
        { status := 1, output := "Error: " ++ error.message ++ "\n", errors := "" }) ∧
    ∀ p, ((alphabet diagram).compile (.text e)).outcome = .ok p →
      ∃ text, Shows frames e diagram text ∧
        run frames random (before ++ e :: after) =
          { status := 0
            output := (if program then "Postfix: " ++ p.postfixText ++ "\n" else "") ++ text ++ "\n"
            errors := "" } := by
  have hrun : run frames random (before ++ e :: after) =
      reportFormula frames e diagram program := by
    have hd : (before ++ after).contains "--diagram" = diagram := by
      rw [Bool.eq_iff_iff, List.contains_iff_mem, hdiagram]
    have hp : (before ++ after).contains "--postfix" = program := by
      rw [Bool.eq_iff_iff, List.contains_iff_mem, hprogram]
    rw [run, read_expression he hflags, hd, hp]
  refine ⟨hrun, ?_, ?_⟩
  · intro error h
    rw [hrun, reportFormula_of_error program h]
  · intro p h
    rw [hrun]
    exact exists_reportFormula_of_ok hframes program h

/-- The empty expression between two flags is compiled; the tour is not printed. -/
theorem run_expression_empty :
    FrameLibrary.standard.BuildsRowWise ∧
      (Alphabet.diagram.compile (.text "")).outcome = .ok [] ∧
      ∃ text, Shows .standard "" true text ∧
        run .standard .standard ["--postfix", "", "--diagram"] =
          { status := 0, output := "Postfix: \n" ++ text ++ "\n", errors := "" } := by
  have h : ((alphabet true).compile (.text "")).outcome = .ok [] := by decide
  have he : "".toList.head? ≠ some '-' := by decide
  have hflags : ∀ flag ∈ ["--postfix"] ++ ["--diagram"],
      flag = "--diagram" ∨ flag = "--postfix" := by decide
  have hdiagram : true = true ↔ "--diagram" ∈ ["--postfix"] ++ ["--diagram"] := by decide
  have hprogram : true = true ↔ "--postfix" ∈ ["--postfix"] ++ ["--diagram"] := by decide
  obtain ⟨-, -, hok⟩ := run_expression FrameLibrary.standard_buildsRowWise .standard he hflags
    hdiagram hprogram
  obtain ⟨text, hshows, hrun⟩ := hok [] h
  exact ⟨FrameLibrary.standard_buildsRowWise, h, text, hshows, hrun⟩

end CommandLine

end Sentential
