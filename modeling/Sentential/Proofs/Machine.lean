import Sentential.Proofs.FormulaGraph.Height
import Sentential.Proofs.Program
/-!
# What the machine leaves on its stack

An instruction takes what it finds of its operands and leaves one value.  So the machine has as many
values on its stack as the height of the program says, whatever the valuation, and the value of a
program that leaves any is the one on top.  A program that denotes a formula adds one value and
touches none below it.
-/

namespace Sentential

namespace Machine

theorem length_step (v : Valuation) (stack : List Bool) (i : Instruction) :
    (step v stack i).length = stack.length - i.arity + 1 := by
  cases i with
  | push name => rfl
  | apply c =>
      cases c with
      | not => simp [step, Instruction.arity, Connective.arity]
      | binary c =>
          simp only [step, List.length_cons, List.length_tail, Instruction.arity, Connective.arity]
          omega

theorem run_concat (v : Valuation) (stack : List Bool) (p : Program) (i : Instruction) :
    run v stack (p ++ [i]) = step v (run v stack p) i := by
  rw [run_append, run_cons, run_nil]

theorem length_run (v : Valuation) (p : Program) : (run v [] p).length = p.height := by
  induction p using List.reverseRecOn with
  | nil => rfl
  | append_singleton p i ih => rw [run_concat, length_step, ih, Program.height_concat]

end Machine

namespace Program

variable {p q : Program}

theorem exists_run_eq_cons (hp : 0 < p.height) (v : Valuation) :
    ∃ rest, Machine.run v [] p = p.evaluate v :: rest := by
  rw [evaluate]
  cases hrun : Machine.run v [] p with
  | nil =>
      have hlength := Machine.length_run v p
      rw [hrun, List.length_nil] at hlength
      omega
  | cons b rest => exact ⟨rest, rfl⟩

theorem exists_eq_postorder (hq : ∀ k c, ¬ q.MissingAt k c) (hheight : q.height = 1) :
    ∃ f : Formula, q = f.postorder := by
  rcases formula_of_not_missingAt hq with ⟨_, f, hf⟩ | ⟨hne, _⟩
  · exact ⟨f, formula_eq_ok_iff.1 hf⟩
  · exact absurd hheight hne

/-- A negation at the end negates the value, and a missing value is false. -/
theorem evaluate_concat_not (p : Program) (v : Valuation) :
    evaluate (p ++ [.apply .not]) v = !p.evaluate v := by
  rw [evaluate, evaluate, Machine.run_concat]
  rfl

/-- A biconditional that finds exactly one operand is false, whatever the operand is. -/
theorem evaluate_concat_biconditional (hp : p.height = 1) (v : Valuation) :
    evaluate (p ++ [.apply (.binary .iff)]) v = false := by
  have hlength := Machine.length_run v p
  rw [hp, List.length_eq_one_iff] at hlength
  obtain ⟨b, hrun⟩ := hlength
  rw [evaluate, Machine.run_concat, hrun]
  rfl

/-- A binary connective at the end takes the values of the two programs before it, if the first
leaves one and the second denotes a formula. -/
theorem evaluate_append_binary (hp : 0 < p.height) (f : Formula) (c : BinaryConnective)
    (v : Valuation) :
    evaluate (p ++ f.postorder ++ [.apply (.binary c)]) v =
      (Connective.binary c).apply (some (p.evaluate v)) (some (f.postorder.evaluate v)) := by
  obtain ⟨rest, hrun⟩ := exists_run_eq_cons hp v
  rw [f.evaluate_postorder, evaluate, Machine.run_concat, Machine.run_append, hrun,
    f.run_postorder]
  rfl

end Program

theorem Formula.height_postorder (f : Formula) : f.postorder.height = 1 := by
  rw [← Machine.length_run (fun _ => false), f.run_postorder]
  rfl

end Sentential
