import Sentential.Proofs.Assignment
import Sentential.Proofs.Compiler.Run
import Sentential.Proofs.Refusal
import Sentential.TruthTable
/-!
# What a truth table shows

A compiled program reads only the atoms of its formula, and the rows of the table hold every choice
of values for these once.  So each mapping has a row of its own, whatever else it maps, and what
the table says of its rows holds of all mappings.
-/

namespace Sentential

open Assignment

theorem TruthTable.flags_of_results {t : TruthTable} {rs : List Bool} (h : t.results = .ok rs) :
    t.isTautology = .ok (!t.rows.isEmpty && rs.all id) ∧
      t.isSatisfiable = .ok (rs.any id) ∧
      t.isContradiction = .ok (!t.rows.isEmpty && !rs.any id) := by
  refine ⟨?_, ?_, ?_⟩
  · unfold isTautology
    rw [h]
    rfl
  · unfold isSatisfiable
    rw [h]
    rfl
  · unfold isContradiction
    rw [h]
    rfl

/-- The results and the flags of a table are read off its rows. -/
theorem TruthTable.flags_of_rows_eq {t u : TruthTable} (h : t.rows = u.rows) :
    t.results = u.results ∧ t.isTautology = u.isTautology ∧ t.isSatisfiable = u.isSatisfiable ∧
      t.isContradiction = u.isContradiction := by
  have hresults : t.results = u.results := by rw [results, results, h]
  refine ⟨hresults, ?_, ?_, ?_⟩
  · rw [isTautology, isTautology, h, hresults]
  · rw [isSatisfiable, isSatisfiable, hresults]
  · rw [isContradiction, isContradiction, h, hresults]

/-- Two valuations that agree on the distinct pushed names give a program one value. -/
theorem Program.evaluate_eq_of_map_eq {p : Program} {v w : Valuation}
    (h : p.pushed.eraseDups.map v = p.pushed.eraseDups.map w) : p.evaluate v = p.evaluate w := by
  apply evaluate_congr
  intro name hname
  exact List.map_inj_left.1 h name (List.mem_eraseDups.2 hname)

/-- The value of a program in the row of a mask. -/
def Program.rowValue (p : Program) (atoms : List String) (m : Nat) : Bool :=
  p.evaluate (ofMask atoms (m : Int)).valuation

namespace Alphabet

variable {a : Alphabet} {source : Source} {p : Program}

theorem nodup_atoms (h : (a.compile source).outcome = .ok p) :
    (a.compile source).atoms.Nodup := by
  rw [compile, atoms_of_outcome h]
  exact Compiler.nodup_eraseDups _

theorem truthTable_of_outcome (h : (a.compile source).outcome = .ok p) :
    a.truthTable source =
      { header := (a.compile source).atoms ++
          [if (a.tokens source).isEmpty then TruthTable.defaultLabel
            else joinTokens (a.tokens source)]
        rows := (all (a.compile source).atoms).map (p.tableRow (a.compile source).atoms) } := by
  unfold compile at h ⊢
  simp only [truthTable, h]

theorem truthTable_of_outcome_error {e : CompileError}
    (h : (a.compile source).outcome = .error e) :
    a.truthTable source = { header := [], error? := some e.message } := by
  unfold compile at h
  simp only [truthTable, h]

theorem rows_truthTable (h : (a.compile source).outcome = .ok p) :
    (a.truthTable source).rows =
      (List.range (2 ^ (a.compile source).atoms.length)).map fun m =>
        cells (a.compile source).atoms.length m ++
          [p.rowValue (a.compile source).atoms m] := by
  rw [truthTable_of_outcome h]
  simp only [all, List.map_map, Nat.one_shiftLeft]
  apply List.map_congr_left
  intro m _
  rw [Function.comp_apply, Program.tableRow, map_valuation_ofMask (nodup_atoms h)]
  rfl

theorem atoms_truthTable (h : (a.compile source).outcome = .ok p) :
    (a.truthTable source).atoms = (a.compile source).atoms := by
  rw [truthTable_of_outcome h, TruthTable.atoms, List.dropLast_concat]

theorem results_truthTable (h : (a.compile source).outcome = .ok p) :
    (a.truthTable source).results =
      .ok ((List.range (2 ^ (a.compile source).atoms.length)).map
        (p.rowValue (a.compile source).atoms)) :=
  TruthTable.results_of_rows (rows_truthTable h)

theorem rowValue_eq_of_cells (h : (a.compile source).outcome = .ok p) {m : Nat} {v : Valuation}
    (hcells : cells (a.compile source).atoms.length m = (a.compile source).atoms.map v) :
    p.rowValue (a.compile source).atoms m = p.evaluate v := by
  rw [← map_valuation_ofMask (nodup_atoms h)] at hcells
  rw [compile, atoms_of_outcome h] at hcells
  rw [Program.rowValue, compile, atoms_of_outcome h]
  exact Program.evaluate_eq_of_map_eq hcells

theorem exists_mask_of_valuation (atoms : List String) (v : Valuation) :
    ∃ m < 2 ^ atoms.length, cells atoms.length m = atoms.map v := by
  obtain ⟨m, hm, hcells⟩ := exists_cells_eq (atoms.map v)
  rw [List.length_map] at hm hcells
  exact ⟨m, hm, hcells⟩

/-- The rows show all the values that the program takes. -/
theorem forall_rowValue_iff (h : (a.compile source).outcome = .ok p) (b : Bool) :
    (∀ m < 2 ^ (a.compile source).atoms.length, p.rowValue (a.compile source).atoms m = b) ↔
      ∀ μ : Mapping, p.evaluate μ.valuation = b := by
  constructor
  · intro hrows μ
    obtain ⟨m, hm, hcells⟩ := exists_mask_of_valuation (a.compile source).atoms μ.valuation
    rw [← rowValue_eq_of_cells h hcells]
    exact hrows m hm
  · intro hall m _
    have hμ := hall (Mapping.ofAssignment (ofMask (a.compile source).atoms (m : Int)))
    rwa [Mapping.valuation_ofAssignment] at hμ

theorem getElem?_rows_eq_some_iff (h : (a.compile source).outcome = .ok p) {m : Nat}
    {row : List Bool} :
    (a.truthTable source).rows[m]? = some row ↔
      m < 2 ^ (a.compile source).atoms.length ∧
        cells (a.compile source).atoms.length m ++ [p.rowValue (a.compile source).atoms m] =
          row := by
  rw [rows_truthTable h, List.getElem?_map]
  by_cases hm : m < 2 ^ (a.compile source).atoms.length
  · simp [hm]
  · simp [hm]

end Alphabet

/-- A table has a row for every choice of truth values of its atoms, in the order of the masks, and
shows what a program computes under every mapping. -/
structure TruthTable.Tabulates (t : TruthTable) (atoms : List String) (label : String)
    (p : Program) : Prop where
  header : t.header = atoms ++ [label]
  length_rows : t.rows.length = 2 ^ atoms.length
  cells : ∀ (m : Nat) (row : List Bool), t.rows[m]? = some row → row.length = atoms.length + 1 ∧
    ∀ i < atoms.length, row[i]? = some (m.testBit (atoms.length - 1 - i))
  existsUnique_row : ∀ μ : Mapping,
    ∃! m : Nat, ∃ row : List Bool, t.rows[m]? = some row ∧ row.dropLast = atoms.map μ.valuation
  result : ∀ μ : Mapping, ∀ row ∈ t.rows, row.dropLast = atoms.map μ.valuation →
    row.getLast? = some (p.evaluate μ.valuation)
  tautology : ∃ b, t.isTautology = .ok b ∧
    (b = true ↔ ∀ μ : Mapping, p.evaluate μ.valuation = true)
  satisfiable : ∃ b, t.isSatisfiable = .ok b ∧
    (b = true ↔ ∃ μ : Mapping, p.evaluate μ.valuation = true)
  contradiction : ∃ b, t.isContradiction = .ok b ∧
    (b = true ↔ ¬ ∃ μ : Mapping, p.evaluate μ.valuation = true)

namespace Alphabet

variable {a : Alphabet} {source : Source} {p : Program}

theorem tabulates_truthTable (h : (a.compile source).outcome = .ok p) :
    (a.truthTable source).Tabulates (a.compile source).atoms
      (if (a.tokens source).isEmpty then TruthTable.defaultLabel
        else joinTokens (a.tokens source)) p := by
  have hresults := results_truthTable h
  obtain ⟨htaut, hsat, hcontra⟩ := TruthTable.flags_of_results hresults
  have hrows : (a.truthTable source).rows.isEmpty = false := by
    simp [rows_truthTable h]
  have htrue := forall_rowValue_iff h true
  have hfalse := forall_rowValue_iff h false
  constructor
  case header => rw [truthTable_of_outcome h]
  case length_rows => rw [rows_truthTable h, List.length_map, List.length_range]
  case cells =>
    intro m row hrow
    obtain ⟨_, rfl⟩ := (getElem?_rows_eq_some_iff h).1 hrow
    refine ⟨by simp, ?_⟩
    intro i hi
    rw [List.getElem?_append_left (by simpa using hi), getElem?_cells hi]
  case existsUnique_row =>
    intro μ
    obtain ⟨m, hm, hcells⟩ := exists_mask_of_valuation (a.compile source).atoms μ.valuation
    refine ⟨m, ⟨_, (getElem?_rows_eq_some_iff h).2 ⟨hm, rfl⟩, by simpa using hcells⟩, ?_⟩
    rintro k ⟨row, hrow, hdrop⟩
    obtain ⟨hk, rfl⟩ := (getElem?_rows_eq_some_iff h).1 hrow
    rw [List.dropLast_concat, ← hcells] at hdrop
    exact cells_injective hk hm hdrop
  case result =>
    intro μ row hmem hdrop
    obtain ⟨m, hrow⟩ := List.mem_iff_getElem?.1 hmem
    obtain ⟨_, rfl⟩ := (getElem?_rows_eq_some_iff h).1 hrow
    rw [List.dropLast_concat] at hdrop
    rw [List.getLast?_concat, rowValue_eq_of_cells h hdrop]
  case tautology =>
    refine ⟨_, htaut, ?_⟩
    rw [← htrue, hrows]
    simp
  case satisfiable =>
    refine ⟨_, hsat, ?_⟩
    rw [← not_iff_not, not_exists]
    simp only [Bool.not_eq_true]
    rw [← hfalse]
    simp
  case contradiction =>
    refine ⟨_, hcontra, ?_⟩
    rw [not_exists, hrows]
    simp only [Bool.not_eq_true]
    rw [← hfalse]
    simp

theorem isContradiction_of_evaluate_eq_false (h : (a.compile source).outcome = .ok p)
    (hfalse : ∀ v : Valuation, p.evaluate v = false) :
    (a.truthTable source).isContradiction = .ok true := by
  obtain ⟨b, hb, hiff⟩ := (tabulates_truthTable h).contradiction
  have hnone : ¬ ∃ μ : Mapping, p.evaluate μ.valuation = true := by
    rintro ⟨μ, hμ⟩
    exact Bool.false_ne_true ((hfalse _).symm.trans hμ)
  rw [hb, hiff.2 hnone]

/-! ## Tables of formulas that may be refused -/

theorem tabulate_eq_error_iff {e : Text.TemplateError} :
    a.tabulate source = .error e ↔ a.Refuses source e := by
  rw [← tokenize_eq_error_iff, tabulate]
  cases a.tokenize source with
  | ok ts => exact iff_of_false (by rintro ⟨⟩) (by rintro ⟨⟩)
  | error e' => simp [bind, Except.bind]

theorem tabulate_of_tokenize {ts : List String} (h : a.tokenize source = .ok ts) :
    a.tabulate source = .ok (a.truthTable source) := by
  rw [tabulate, h, eq_tokens_of_tokenize h]
  rfl

/-- A formula with a table has tokens, and the table is that of its tokens. -/
theorem tokenize_of_tabulate {t : TruthTable} (h : a.tabulate source = .ok t) :
    a.tokenize source = .ok (a.tokens source) ∧ t = a.truthTable source := by
  rcases a.tokenize_cases source with ⟨e, hrefuses, _⟩ | ⟨_, hok⟩
  · cases h.symm.trans (tabulate_eq_error_iff.2 hrefuses)
  · cases h.symm.trans (tabulate_of_tokenize hok)
    exact ⟨hok, rfl⟩

theorem flags_of_outcome_error {e : CompileError} (h : (a.compile source).outcome = .error e) :
    (a.truthTable source).rows = [] ∧ (a.truthTable source).isTautology = .ok false ∧
      (a.truthTable source).isSatisfiable = .ok false ∧
      (a.truthTable source).isContradiction = .ok false := by
  have hrows : (a.truthTable source).rows = [] := by
    rw [truthTable_of_outcome_error h]
  have hresults : (a.truthTable source).results = .ok [] := by
    rw [TruthTable.results, hrows]
    rfl
  obtain ⟨htaut, hsat, hcontra⟩ := TruthTable.flags_of_results hresults
  rw [hrows] at htaut hcontra
  exact ⟨hrows, htaut, hsat, hcontra⟩

/-- A formula that is not refused has a table.  That of a formula that compiles lists all choices of
values for its atoms, and its flags quantify over all mappings.  A formula that does not compile has
no rows and no flag. -/
theorem tabulate_complete (a : Alphabet) (source : Source) :
    (∀ e, a.tabulate source = .error e ↔ a.Refuses source e) ∧
    ∀ t, a.tabulate source = .ok t → ∃ ts c, a.tokenize source = .ok ts ∧
      a.compileSource source = .ok c ∧
      (∀ p, c.outcome = .ok p →
        t.Tabulates c.atoms (if ts.isEmpty then TruthTable.defaultLabel else joinTokens ts) p) ∧
      ∀ e, c.outcome = .error e → t.rows = [] ∧ t.isTautology = .ok false ∧
        t.isSatisfiable = .ok false ∧ t.isContradiction = .ok false := by
  refine ⟨fun e => tabulate_eq_error_iff, fun t ht => ?_⟩
  obtain ⟨htokens, rfl⟩ := tokenize_of_tabulate ht
  exact ⟨_, _, htokens, compileSource_of_tokenize htokens, fun p h => tabulates_truthTable h,
    fun e h => flags_of_outcome_error h⟩

/-- A connective without its right operand compiles, and its formula has a full table. -/
theorem tabulate_complete_dangling :
    builder.compileSource (.tokens ["Q", "→", "P", "∨"]) =
        .ok ⟨["Q", "P"],
          .ok [.push "Q", .push "P", .apply (.binary .or), .apply (.binary .implies)]⟩ ∧
      ∃ t, builder.tabulate (.tokens ["Q", "→", "P", "∨"]) = .ok t ∧ t.rows.length = 2 ^ 2 := by
  refine ⟨rfl, _, rfl, ?_⟩
  obtain ⟨ts, c, _, hc, htabulates, _⟩ :=
    (tabulate_complete builder (.tokens ["Q", "→", "P", "∨"])).2 _ rfl
  cases hc
  exact (htabulates _ rfl).length_rows

/-- A single backslash is no template.  As an atom it leaves even a text in which it does not occur
without a table, with rows or without. -/
theorem not_tabulate_complete :
    tabulate { atoms := ["\\"], wordSpellings := true } (.text "x") =
        .error ⟨['\\'], .looseBackslash, 0⟩ ∧
      ¬ ∀ (a : Alphabet) (source : Source), ∃ t, a.tabulate source = .ok t := by
  refine ⟨rfl, fun h => ?_⟩
  obtain ⟨t, ht⟩ := h { atoms := ["\\"], wordSpellings := true } (.text "x")
  cases ht

end Alphabet

end Sentential
