import Sentential.CommandLine.Arguments
/-!
# An expression among flags

The flags may stand on both sides of the expression and in any order.  Reading a flag changes the
reading in its own field; it neither takes the place of the expression nor leaves anything over.  So
what is asked for depends on the expression and on which flags there are.
-/

namespace Sentential

namespace CommandLine

variable {text : String} {flags : List String}

/-! ## Single arguments -/

theorem lookup_spellings_of_head?_ne (h : text.toList.head? ≠ some '-') :
    Flag.spellings.lookup text = none := by
  rw [List.lookup_eq_none_iff]
  intro spelling hspelling
  have hdash : spelling.1.toList.head? = some '-' := by
    revert spelling
    decide
  simpa using fun heq : text = spelling.1 => h (heq ▸ hdash)

/-- A text that does not begin with a dash is an expression, also if it is empty. -/
theorem classify_of_head?_ne (h : text.toList.head? ≠ some '-') :
    classify text = .operand text := by
  rw [classify, lookup_spellings_of_head?_ne h]
  split
  case h_1 hspelling => cases hspelling
  case h_2 =>
    split
    case h_1 hcons => exact absurd (congrArg List.head? hcons) h
    case h_2 => rfl

theorem classify_diagram : classify "--diagram" = .flag .diagram := rfl

theorem classify_program : classify "--postfix" = .flag .program := rfl

theorem classify_ne_ambiguous
    (h : text.toList.head? ≠ some '-' ∨ text = "--diagram" ∨ text = "--postfix")
    (t : String) (candidates : List String) : classify text ≠ .ambiguous t candidates := by
  rcases h with h | rfl | rfl
  · simp [classify_of_head?_ne h]
  · simp [classify_diagram]
  · simp [classify_program]

theorem firstAmbiguous_eq_none {arguments : List String}
    (h : ∀ text ∈ arguments, ∀ t candidates, classify text ≠ .ambiguous t candidates) :
    firstAmbiguous arguments = none := by
  induction arguments with
  | nil => rfl
  | cons text rest ih =>
      obtain ⟨htext, hrest⟩ := List.forall_mem_cons.1 h
      rw [firstAmbiguous]
      split
      · rfl
      · split
        case h_1 t candidates hclassify => exact absurd hclassify (htext t candidates)
        case h_2 => exact ih hrest

/-! ## Flags -/

namespace Reading

/-- The reading after flags. -/
def noted (r : Reading) (flags : List String) : Reading :=
  { r with
    slot := if flags.isEmpty then r.slot else r.passed.slot
    diagram := r.diagram || flags.contains "--diagram"
    program := r.program || flags.contains "--postfix" }

variable (r : Reading)

theorem noted_nil : r.noted [] = r := by simp [noted]

theorem noted_cons (flag : String) (flags : List String) :
    r.noted (flag :: flags) = (r.noted [flag]).noted flags := by
  simp [noted, passed, Bool.or_assoc]

/-- An expression that is wanted before flags is still wanted behind them. -/
theorem slot_noted (h : r.slot = .wanted) (flags : List String) :
    (r.noted flags).slot = .wanted := by
  simp [noted, passed, h]

end Reading

theorem readFrom_flag (r : Reading) (hflag : text = "--diagram" ∨ text = "--postfix")
    (rest : List String) : readFrom r (text :: rest) = readFrom (r.noted [text]) rest := by
  rcases hflag with rfl | rfl
  · rw [readFrom, if_neg (by decide), classify_diagram]
    simp [Reading.noted, Reading.passed]
  · rw [readFrom, if_neg (by decide), classify_program]
    simp [Reading.noted, Reading.passed]

theorem readFrom_flags (r : Reading)
    (hflags : ∀ flag ∈ flags, flag = "--diagram" ∨ flag = "--postfix") (rest : List String) :
    readFrom r (flags ++ rest) = readFrom (r.noted flags) rest := by
  induction flags generalizing r with
  | nil => rw [List.nil_append, r.noted_nil]
  | cons flag flags ih =>
      obtain ⟨hflag, hrest⟩ := List.forall_mem_cons.1 hflags
      rw [List.cons_append, readFrom_flag r hflag, ih _ hrest, ← r.noted_cons]

theorem readFrom_operand (r : Reading) (h : text.toList.head? ≠ some '-') (rest : List String) :
    readFrom r (text :: rest) = readFrom (r.takeOperand text) rest := by
  have hmark : text ≠ "--" := by
    rintro rfl
    exact h rfl
  rw [readFrom, if_neg hmark, classify_of_head?_ne h]

/-! ## The command -/

/-- Arguments that give one expression between flags ask for the expression. -/
theorem read_expression {e : String} (he : e.toList.head? ≠ some '-') {before after : List String}
    (hflags : ∀ flag ∈ before ++ after, flag = "--diagram" ∨ flag = "--postfix") :
    read (before ++ e :: after) =
      .ok (.formula e ((before ++ after).contains "--diagram")
        ((before ++ after).contains "--postfix")) := by
  obtain ⟨hbefore, hafter⟩ := List.forall_mem_append.1 hflags
  have hnone : firstAmbiguous (before ++ e :: after) = none := by
    apply firstAmbiguous_eq_none
    rw [List.forall_mem_append, List.forall_mem_cons]
    exact ⟨fun flag h => classify_ne_ambiguous (.inr (hbefore flag h)),
      classify_ne_ambiguous (.inl he), fun flag h => classify_ne_ambiguous (.inr (hafter flag h))⟩
  have hwanted := Reading.slot_noted {} rfl before
  calc read (before ++ e :: after)
      = readFrom {} (before ++ e :: (after ++ [])) := by rw [read, hnone, List.append_nil]
    _ = ((Reading.takeOperand (Reading.noted {} before) e).noted after).finish := by
        rw [readFrom_flags _ hbefore, readFrom_operand _ he, readFrom_flags _ hafter, readFrom]
    _ = _ := by
        rw [Reading.takeOperand, hwanted]
        simp [Reading.finish, Reading.noted]

end CommandLine

end Sentential
