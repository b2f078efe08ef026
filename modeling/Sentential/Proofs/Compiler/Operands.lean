import Sentential.Proofs.Compiler.Group
import Sentential.Proofs.Machine
import Sentential.Proofs.TruthTable
/-!
# Groups as operands

A connective in front of a group, or between two groups, is emitted after the programs of the
groups, whatever these are.  A negation so negates the value of any group that compiles.  A binary
connective finds the values of both groups on top of the stack, if the left one leaves a value and
the right one denotes a formula; what else the left group leaves behind lies below.
-/

namespace Sentential

/-- Tokens in parentheses. -/
def grouped (ts : List String) : List String := "(" :: (ts ++ [")"])

/-- One table negates another: it has the same atoms, and the opposite result in every row. -/
structure TruthTable.Negates (t u : TruthTable) : Prop where
  atoms : t.atoms = u.atoms
  results : ∃ rs, u.results = .ok rs ∧ t.results = .ok (rs.map (!·))
  tautology : t.isTautology = u.isContradiction
  contradiction : t.isContradiction = u.isTautology

theorem TruthTable.negates_of_results {t u : TruthTable} {rs : List Bool}
    (hatoms : t.atoms = u.atoms) (hrows : t.rows.isEmpty = u.rows.isEmpty)
    (hu : u.results = .ok rs) (ht : t.results = .ok (rs.map (!·))) : t.Negates u := by
  obtain ⟨htaut, _, hcontra⟩ := flags_of_results ht
  obtain ⟨htaut', _, hcontra'⟩ := flags_of_results hu
  refine ⟨hatoms, ⟨rs, hu, ht⟩, ?_, ?_⟩
  · rw [htaut, hcontra', hrows, List.all_map, List.not_any_eq_all_not]
    rfl
  · rw [hcontra, htaut', hrows, List.any_map, List.not_any_eq_all_not]
    simp only [Function.comp_apply, id_eq, Bool.not_not]
    rfl

namespace Compiler

variable {σ : Compiler} {ss : List Symbol} {p : Program}

/-- Reading goes on behind a group with its program emitted. -/
theorem exists_outcomeFrom_group_append (h : outcomeFrom {} ss = .ok p) (waiting : List Waiting)
    (emitted : Program) (seen : List String) (ts : List Symbol) :
    ∃ seen', outcomeFrom ⟨waiting, emitted, seen⟩ (.opening :: (ss ++ [.closing]) ++ ts) =
      outcomeFrom ⟨waiting, emitted ++ p, seen'⟩ ts := by
  obtain ⟨σ, hrun, hfinish⟩ := exists_run_of_outcomeFrom h
  obtain ⟨seen', hgroup⟩ := run_group hrun hfinish waiting emitted seen
  exact ⟨seen', outcomeFrom_append_of_ok hgroup⟩

theorem outcomeFrom_pending (cs : List Connective) (emitted : Program) (seen : List String) :
    outcomeFrom ⟨pending cs, emitted, seen⟩ [] = .ok (emitted ++ released cs) := by
  rw [outcomeFrom, run_nil]
  simp only [finish, releaseAll_pending]

end Compiler

namespace Alphabet

open Compiler

variable {a : Alphabet} {ss ts : List String} {p q : Program}

theorem map_symbol_grouped (ha : a.IsPlain) (ts : List String) :
    (grouped ts).map a.symbol = .opening :: (ts.map a.symbol ++ [.closing]) := by
  simp [grouped, symbol_opening ha.opening_notMem, symbol_closing ha.closing_notMem]

theorem outcome_not_grouped (ha : a.IsPlain) (h : (a.compile (.tokens ss)).outcome = .ok p) :
    (a.compile (.tokens ("¬" :: grouped ss))).outcome = .ok (p ++ [.apply .not]) := by
  have hnot : a.symbol "¬" = .connective .not := symbol_text ha .not
  have hread : Transition {} (.connective .not) ⟨pending [.not], [], []⟩ :=
    .connective .not [] [] [] [] rfl
  rw [outcome_compile] at h ⊢
  obtain ⟨seen, hgroup⟩ := exists_outcomeFrom_group_append h (pending [.not]) [] [] []
  rw [List.append_nil] at hgroup
  rw [List.map_cons, hnot, map_symbol_grouped ha, outcomeFrom_cons_of_transition hread, hgroup,
    outcomeFrom_pending]
  rfl

theorem outcome_binary_grouped (ha : a.IsPlain) (hs : (a.compile (.tokens ss)).outcome = .ok p)
    (ht : (a.compile (.tokens ts)).outcome = .ok q) (c : BinaryConnective) :
    (a.compile (.tokens (grouped ss ++ (Connective.binary c).text :: grouped ts))).outcome =
      .ok (p ++ q ++ [.apply (.binary c)]) := by
  rw [outcome_compile] at hs ht ⊢
  obtain ⟨seen, hleft⟩ := exists_outcomeFrom_group_append hs [] [] []
    (.connective (.binary c) :: .opening :: (ts.map a.symbol ++ [.closing]))
  have hread : Transition ⟨[], p, seen⟩ (.connective (.binary c))
      ⟨pending [.binary c], p ++ released [], seen⟩ :=
    .connective (.binary c) [] [] p seen rfl
  rw [released_nil, List.append_nil] at hread
  obtain ⟨seen', hright⟩ :=
    exists_outcomeFrom_group_append ht (pending [.binary c]) p seen []
  rw [List.append_nil] at hright
  rw [List.map_append, List.map_cons, symbol_text ha, map_symbol_grouped ha, map_symbol_grouped ha,
    hleft, List.nil_append, outcomeFrom_cons_of_transition hread, hright, outcomeFrom_pending]
  rfl

theorem negates_not_grouped (ha : a.IsPlain) (h : (a.compile (.tokens ss)).outcome = .ok p) :
    (a.truthTable (.tokens ("¬" :: grouped ss))).Negates (a.truthTable (.tokens ss)) := by
  have hnot := outcome_not_grouped ha h
  have hatoms : (a.compile (.tokens ("¬" :: grouped ss))).atoms =
      (a.compile (.tokens ss)).atoms := by
    have hpushed : Program.pushed (p ++ [.apply .not]) = p.pushed := by simp
    rw [compile, atoms_of_outcome hnot, hpushed, ← atoms_of_outcome h]
    rfl
  have hresults := results_truthTable h
  have hresults' := results_truthTable hnot
  have hvalues : Program.rowValue (p ++ [.apply .not]) (a.compile (.tokens ss)).atoms =
      (!·) ∘ p.rowValue (a.compile (.tokens ss)).atoms := by
    funext m
    exact p.evaluate_concat_not _
  rw [hatoms, hvalues, ← List.map_map] at hresults'
  have hcolumns : (a.truthTable (.tokens ("¬" :: grouped ss))).atoms =
      (a.truthTable (.tokens ss)).atoms := by
    rw [atoms_truthTable hnot, atoms_truthTable h, hatoms]
  have hrows : (a.truthTable (.tokens ("¬" :: grouped ss))).rows.isEmpty =
      (a.truthTable (.tokens ss)).rows.isEmpty := by
    rw [rows_truthTable hnot, rows_truthTable h, hatoms]
    simp
  exact TruthTable.negates_of_results hcolumns hrows hresults hresults'

/-- A connective acts on the values of the groups that it stands in front of or between.  What is in
a group need not be a formula: a negation takes whatever compiles, and a binary connective takes a
left group that leaves a value and a right one that denotes a formula. -/
theorem compile_connective_grouped {a : Alphabet} (ha : a.IsPlain) {ss : List String} {p : Program}
    (hs : (a.compile (.tokens ss)).outcome = .ok p) :
    ((a.compile (.tokens ("¬" :: grouped ss))).outcome = .ok (p ++ [.apply .not]) ∧
      ∀ v : Valuation, (a.compile (.tokens ("¬" :: grouped ss))).program.evaluate v =
        !(a.compile (.tokens ss)).program.evaluate v) ∧
    (a.truthTable (.tokens ("¬" :: grouped ss))).Negates (a.truthTable (.tokens ss)) ∧
    ∀ (c : BinaryConnective) (ts : List String) (q : Program),
      (a.compile (.tokens ts)).outcome = .ok q → 0 < p.height →
      (∀ k d, ¬ q.MissingAt k d) → q.height = 1 →
        (a.compile (.tokens (grouped ss ++ (Connective.binary c).text :: grouped ts))).outcome =
          .ok (p ++ q ++ [.apply (.binary c)]) ∧
        ∀ v : Valuation,
          (a.compile (.tokens
            (grouped ss ++ (Connective.binary c).text :: grouped ts))).program.evaluate v =
            (Connective.binary c).apply (some ((a.compile (.tokens ss)).program.evaluate v))
              (some ((a.compile (.tokens ts)).program.evaluate v)) := by
  have hnot := outcome_not_grouped ha hs
  refine ⟨⟨hnot, ?_⟩, negates_not_grouped ha hs, ?_⟩
  · intro v
    rw [Compilation.program_of_outcome hnot, Compilation.program_of_outcome hs,
      Program.evaluate_concat_not]
  · intro c ts q ht hp hq hheight
    have hbinary := outcome_binary_grouped ha hs ht c
    refine ⟨hbinary, ?_⟩
    intro v
    obtain ⟨f, rfl⟩ := Program.exists_eq_postorder hq hheight
    rw [Compilation.program_of_outcome hbinary, Compilation.program_of_outcome hs,
      Compilation.program_of_outcome ht, Program.evaluate_append_binary hp]

/-- The left group leaves a value below its own, and the connective behind it does not see that. -/
theorem compile_connective_grouped_surplus :
    (builder.compile (.tokens ["S", "∧", "P", "Q"])).outcome =
        .ok [.push "S", .push "P", .push "Q", .apply (.binary .and)] ∧
      (builder.truthTable (.tokens ["¬", "(", "S", "∧", "P", "Q", ")"])).Negates
        (builder.truthTable (.tokens ["S", "∧", "P", "Q"])) ∧
      (builder.compile (.tokens
        ["(", "S", "∧", "P", "Q", ")", "→", "(", "¬", "R", ")"])).outcome =
        .ok [.push "S", .push "P", .push "Q", .apply (.binary .and), .push "R", .apply .not,
          .apply (.binary .implies)] := by
  have hs : (builder.compile (.tokens ["S", "∧", "P", "Q"])).outcome =
      .ok [.push "S", .push "P", .push "Q", .apply (.binary .and)] := rfl
  have ht : (builder.compile (.tokens ["¬", "R"])).outcome = .ok [.push "R", .apply .not] := rfl
  have hsupplied : ∀ k d, ¬ Program.MissingAt [.push "R", .apply .not] k d := by
    intro k d hmissing
    have hk := hmissing.lt_length
    obtain rfl | rfl : k = 0 ∨ k = 1 := by
      simp only [List.length_cons, List.length_nil] at hk
      omega
    · cases hmissing.getElem?_eq
    · cases hmissing.getElem?_eq
      exact absurd hmissing.height_lt (by decide)
  obtain ⟨_, hnegates, hbinary⟩ := compile_connective_grouped (by decide) hs
  exact ⟨hs, hnegates, (hbinary .implies _ _ ht (by decide) hsupplied rfl).1⟩

end Alphabet

end Sentential
