import Sentential.Proofs.Compiler.Trailing
import Sentential.Proofs.Machine
import Sentential.Proofs.TruthTable
/-!
# A biconditional behind a formula

No connective binds looser than the biconditional, so it stands behind the whole program of the
formula before it.  That program leaves one value, and the biconditional equates a missing operand
only with another missing one.  So the value does not matter, and the result is false.
-/

namespace Sentential

namespace Alphabet

variable {a : Alphabet} {ts : List String} {f : Formula}

/-- The whole formula is the left half that a biconditional opens. -/
theorem outcome_trailing_biconditional (ha : a.IsPlain) (h : a.Derives .conditional ts f) :
    (a.compile (.tokens (ts ++ ["↔"]))).outcome =
      .ok (f.postorder ++ [.apply (.binary .iff)]) := by
  have hopens : a.Opens 2 ([] ++ (ts ++ ["↔"])) [⟨f, .iff⟩] :=
    .snoc (c := .iff) (.nil _) h (by decide)
  exact hopens.outcome_eq ha

/-- A formula with a biconditional behind it compiles to its own program and the biconditional, and
is false under every valuation. -/
theorem compile_trailing_biconditional (ha : a.IsPlain) (h : a.Derives .conditional ts f) :
    (a.compile (.tokens ts)).outcome = .ok f.postorder ∧
      (a.compile (.tokens (ts ++ ["↔"]))).outcome =
        .ok (f.postorder ++ [.apply (.binary .iff)]) ∧
      (∀ v : Valuation, (a.compile (.tokens (ts ++ ["↔"]))).program.evaluate v = false) ∧
      (a.truthTable (.tokens (ts ++ ["↔"]))).isContradiction = .ok true := by
  have houtcome := outcome_trailing_biconditional ha h
  have hfalse : ∀ v : Valuation,
      Program.evaluate (f.postorder ++ [.apply (.binary .iff)]) v = false :=
    fun v => Program.evaluate_concat_biconditional f.height_postorder v
  refine ⟨outcome_of_derives ha h, houtcome, ?_,
    isContradiction_of_evaluate_eq_false houtcome hfalse⟩
  intro v
  rw [Compilation.program_of_outcome houtcome, hfalse]

/-- The conditional and the negated group before the biconditional are released first. -/
theorem compile_trailing_biconditional_pending :
    builder.Derives .conditional ["P", "→", "¬", "(", "Q", "∨", "P", ")"]
        (.binary .implies (.atom "P") (.negation (.binary .or (.atom "Q") (.atom "P")))) ∧
      (builder.compile (.tokens ["P", "→", "¬", "(", "Q", "∨", "P", ")", "↔"])).outcome =
        .ok [.push "P", .push "Q", .push "P", .apply (.binary .or), .apply .not,
          .apply (.binary .implies), .apply (.binary .iff)] ∧
      (builder.truthTable
        (.tokens ["P", "→", "¬", "(", "Q", "∨", "P", ")", "↔"])).isContradiction = .ok true := by
  have hp : builder.Derives .literal ["P"] (.atom "P") := .atom (by decide)
  have hq : builder.Derives .literal ["Q"] (.atom "Q") := .atom (by decide)
  have hor : builder.Derives .disjunction ["Q", "∨", "P"]
      (.binary .or (.atom "Q") (.atom "P")) := .or hq.ofLiteral.ofConjunction hp.ofLiteral
  have hnot : builder.Derives .literal ["¬", "(", "Q", "∨", "P", ")"]
      (.negation (.binary .or (.atom "Q") (.atom "P"))) := .not (.group hor.ofDisjunction)
  have hderives : builder.Derives .conditional ["P", "→", "¬", "(", "Q", "∨", "P", ")"]
      (.binary .implies (.atom "P") (.negation (.binary .or (.atom "Q") (.atom "P")))) :=
    .implies hp.ofLiteral.ofConjunction.ofDisjunction hnot.ofLiteral.ofConjunction
  obtain ⟨_, houtcome, _, hcontradiction⟩ := compile_trailing_biconditional (by decide) hderives
  exact ⟨hderives, houtcome, hcontradiction⟩

end Alphabet

end Sentential
