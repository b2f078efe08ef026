import Sentential.Proofs.Frame
import Sentential.Proofs.Library.Frames
import Sentential.Proofs.PostfixText
/-!
# The views of a truth table

The results, the flags, the frames and the text of a computed table all show its rows, and each of
them exists: the rows are as long as the header, and there is at least one.  A formula that does not
compile has an empty frame, and its text is the message.

The frames are those of a library that keeps full rows as they are, and the text is that of a
library that writes them in right-aligned columns.
-/

namespace Sentential

open Sentential.Frame (IsPlainName)

/-! ## Labels -/

theorem notMem_toList_joinTokens {c : Char} (hc : c ≠ ' ') {ts : List String}
    (h : ∀ t ∈ ts, c ∉ t.toList) : c ∉ (joinTokens ts).toList := by
  induction ts with
  | nil => exact List.not_mem_nil
  | cons t ts ih =>
      obtain ⟨ht, hts⟩ := List.forall_mem_cons.1 h
      cases ts with
      | nil =>
          rw [joinTokens, String.intercalate_singleton]
          exact ht
      | cons u ts =>
          have hsplit : joinTokens (t :: u :: ts) = t ++ " " ++ joinTokens (u :: ts) :=
            String.intercalate_cons_cons
          rw [hsplit, String.toList_append, String.toList_append, List.mem_append, List.mem_append]
          rintro ((hmem | hmem) | hmem)
          · exact ht hmem
          · exact hc (List.mem_singleton.1 hmem)
          · exact ih hts hmem

theorem isPlainName_joinTokens {ts : List String} (h : ∀ t ∈ ts, IsPlainName t) :
    IsPlainName (joinTokens ts) :=
  ⟨notMem_toList_joinTokens (by decide) fun t ht => (h t ht).1,
    notMem_toList_joinTokens (by decide) fun t ht => (h t ht).2.1,
    notMem_toList_joinTokens (by decide) fun t ht => (h t ht).2.2⟩

theorem Compiler.unknown_notMem_of_run {σ σ' : Compiler} {ss : List Symbol}
    (h : run σ ss = (σ', none)) (text : String) : Symbol.unknown text ∉ ss := by
  refine run_induction (motive := fun _ ss => Symbol.unknown text ∉ ss) List.not_mem_nil ?_ h
  intro τ τ' ss s hss htrans
  rw [List.mem_append, List.mem_singleton, not_or]
  refine ⟨hss, ?_⟩
  rintro rfl
  cases htrans

namespace Alphabet

variable {a : Alphabet} {source : Source} {p : Program}

/-- A formula that compiles has no tokens but atoms, glyphs and parentheses. -/
theorem mem_atoms_or_of_mem_tokens (h : (a.compile source).outcome = .ok p) {t : String}
    (ht : t ∈ a.tokens source) :
    t ∈ a.atoms ∨ (∃ c : Connective, t = c.text) ∨ t = "(" ∨ t = ")" := by
  obtain ⟨σ, hrun, -⟩ := exists_run_of_outcome h
  rcases a.symbol_cases t with ⟨hmem, _⟩ | ⟨_, c, hc, _⟩ | ⟨_, hopening, _⟩ | ⟨_, hclosing, _⟩ |
    ⟨_, _, _, _, hunknown⟩
  · exact .inl hmem
  · exact .inr (.inl ⟨c, hc⟩)
  · exact .inr (.inr (.inl hopening))
  · exact .inr (.inr (.inr hclosing))
  · exact absurd (List.mem_map.2 ⟨t, ht, hunknown⟩) (Compiler.unknown_notMem_of_run hrun t)

theorem isPlainName_of_mem_tokens (ha : ∀ name ∈ a.atoms, IsPlainName name)
    (h : (a.compile source).outcome = .ok p) {t : String} (ht : t ∈ a.tokens source) :
    IsPlainName t := by
  rcases mem_atoms_or_of_mem_tokens h ht with hmem | ⟨c, rfl⟩ | rfl | rfl
  · exact ha t hmem
  · rcases c with _ | (_ | _ | _ | _) <;> decide
  · decide
  · decide

theorem isPlainName_of_mem_header (ha : ∀ name ∈ a.atoms, IsPlainName name)
    (h : (a.compile source).outcome = .ok p) {name : String}
    (hname : name ∈ (a.truthTable source).header) : IsPlainName name := by
  rw [truthTable_of_outcome h, List.mem_append, List.mem_singleton] at hname
  rcases hname with hname | rfl
  · exact ha name (mem_atoms_of_mem_pushed h name ((mem_atoms_iff_mem_pushed h).1 hname))
  · split
    · decide
    · exact isPlainName_joinTokens fun t ht => isPlainName_of_mem_tokens ha h ht

end Alphabet

/-! ## Views -/

namespace TruthTable

/-- The views of a table of `n` atoms exist and show its rows: the last column with its flags, both
frames, and the text. -/
structure Viewed (t : TruthTable) (lib : FrameLibrary) (n : Nat) : Prop where
  results : ∃ rs : List Bool, t.rows.map List.getLast? = rs.map some ∧ t.results = .ok rs ∧
    t.vector = .ok (rs.map fun b => if b then 1 else 0) ∧ t.isTautology = .ok (rs.all id) ∧
    t.isContradiction = .ok (!rs.any id) ∧ t.isSatisfiable = .ok (rs.any id)
  frame : ∃ f, t.frame lib = .ok f ∧ f.shape = (2 ^ n, n + 1) ∧ f.columns = t.header ∧
    f.rows = t.rows.map fun row => row.map some
  letterFrame : ∃ f, t.letterFrame lib = .ok f ∧ f.shape = (2 ^ n, n + 1) ∧
    f.columns = t.header ∧ f.rows = t.rows.map fun row => row.map fun b => some (Text.truthLetter b)
  text : ∃ text widths header body, t.text lib = .ok text ∧ body.length = 2 ^ n ∧
    Frame.IsWritten t.header (t.rows.map fun row => row.map Text.truthLetter) text widths header
      body

/-- The views of a table without rows: no results, empty frames, and a text that is a message. -/
structure IsEmptyWith (t : TruthTable) (lib : FrameLibrary) (message : String) : Prop where
  results : t.results = .ok []
  vector : t.vector = .ok []
  tautology : t.isTautology = .ok false
  contradiction : t.isContradiction = .ok false
  satisfiable : t.isSatisfiable = .ok false
  frame : t.frame lib = .ok ⟨[], []⟩
  letterFrame : t.letterFrame lib = .ok ⟨[], []⟩
  text : t.text lib = .ok ("Error: " ++ message)

end TruthTable

namespace Alphabet

variable {a : Alphabet} {source : Source} {p : Program} {lib : FrameLibrary}

theorem length_rows_truthTable (h : (a.compile source).outcome = .ok p) :
    (a.truthTable source).rows.length = 2 ^ (a.compile source).atoms.length :=
  (tabulates_truthTable h).length_rows

theorem length_header_truthTable (h : (a.compile source).outcome = .ok p) :
    (a.truthTable source).header.length = (a.compile source).atoms.length + 1 := by
  rw [(tabulates_truthTable h).header, List.length_append, List.length_singleton]

theorem rows_truthTable_ne_nil (h : (a.compile source).outcome = .ok p) :
    (a.truthTable source).rows ≠ [] := by
  have hpos : 0 < (a.truthTable source).rows.length := by
    rw [length_rows_truthTable h]
    exact Nat.two_pow_pos _
  exact List.length_pos_iff.1 hpos

theorem isSeparate_of_mem_letters {row : List String} {cell : String}
    (hrow : row ∈ (a.truthTable source).letters) (hcell : cell ∈ row) :
    IsSeparate cell ∧ '\n' ∉ cell.toList ∧ ∀ c ∈ cell.toList, Text.isBlank c = false := by
  obtain ⟨cells, _, rfl⟩ := List.mem_map.1 hrow
  obtain ⟨b, _, rfl⟩ := List.mem_map.1 hcell
  have hsolid : (Text.truthLetter b).toList.all (!Text.isBlank ·) = true := by cases b <;> decide
  refine ⟨?_, ?_, by simpa using hsolid⟩
  · cases b <;> decide
  · cases b <;> decide

theorem exists_text_isWritten (hbuild : lib.BuildsRowWise)
    (halign : lib.AlignsRight (a.truthTable source).header)
    (ha : ∀ name ∈ a.atoms, IsPlainName name) (h : (a.compile source).outcome = .ok p) :
    ∃ text widths header body, (a.truthTable source).text lib = .ok text ∧
      Frame.IsWritten (a.truthTable source).header (a.truthTable source).letters text widths header
        body := by
  have hrows : (a.truthTable source).letters ≠ [] := by
    rw [TruthTable.letters, ne_eq, List.map_eq_nil_iff]
    exact rows_truthTable_ne_nil h
  have hlength : ∀ row ∈ (a.truthTable source).letters,
      row.length = (a.truthTable source).header.length :=
    fun row hrow => length_of_mem_letters h hrow
  have htext := halign _ hrows hlength fun row hrow cell hcell =>
    (isSeparate_of_mem_letters hrow hcell).2.2
  obtain ⟨widths, header, body, hwritten⟩ := Frame.exists_isWritten_aligned hlength
    (fun name hname => isPlainName_of_mem_header ha h hname) fun row hrow cell hcell =>
      ⟨(isSeparate_of_mem_letters hrow hcell).1, (isSeparate_of_mem_letters hrow hcell).2.1⟩
  refine ⟨_, widths, header, body, text_truthTable hbuild h, ?_⟩
  rw [htext]
  exact hwritten

theorem viewed_truthTable (hbuild : lib.BuildsRowWise)
    (halign : lib.AlignsRight (a.truthTable source).header)
    (ha : ∀ name ∈ a.atoms, IsPlainName name) (h : (a.compile source).outcome = .ok p) :
    (a.truthTable source).Viewed lib (a.compile source).atoms.length := by
  have hrows := length_rows_truthTable h
  have hheader := length_header_truthTable h
  have hresults := results_truthTable h
  constructor
  case results =>
    obtain ⟨htaut, hsat, hcontra⟩ := TruthTable.flags_of_results hresults
    rw [List.isEmpty_eq_false_iff.2 (rows_truthTable_ne_nil h), Bool.not_false, Bool.true_and]
      at htaut hcontra
    refine ⟨_, ?_, hresults, ?_, htaut, hcontra, hsat⟩
    · rw [rows_truthTable h, List.map_map, List.map_map]
      exact List.map_congr_left fun m _ => List.getLast?_concat
    · rw [TruthTable.vector, hresults]
      exact congrArg Except.ok (List.map_congr_left fun b _ => by cases b <;> rfl)
  case frame =>
    refine ⟨_, frame_truthTable hbuild h, ?_, rfl, rfl⟩
    rw [Frame.shape, Frame.full, List.length_map, hrows, hheader]
  case letterFrame =>
    refine ⟨_, letterFrame_truthTable hbuild h, ?_, rfl, ?_⟩
    · rw [Frame.shape, Frame.full, TruthTable.letters, List.length_map, List.length_map, hrows,
        hheader]
    · simp [Frame.full, TruthTable.letters, Function.comp_def]
  case text =>
    obtain ⟨text, widths, header, body, htext, hwritten⟩ :=
      exists_text_isWritten hbuild halign ha h
    refine ⟨text, widths, header, body, htext, ?_, hwritten⟩
    rw [hwritten.length_body, TruthTable.letters, List.length_map, hrows]

theorem isEmptyWith_of_outcome_error (hbuild : lib.BuildsRowWise) {e : CompileError}
    (h : (a.compile source).outcome = .error e) :
    (a.truthTable source).IsEmptyWith lib e.message := by
  have hempty : ∀ α : Type, lib.build [] ([] : List (List α)) = .ok ⟨[], []⟩ :=
    fun _ => hbuild [] [] (by simp)
  rw [truthTable_of_outcome_error h]
  constructor
  case frame => exact congrArg (Except.mapError TableError.frame) (hempty Bool)
  case letterFrame => exact congrArg (Except.mapError TableError.frame) (hempty String)
  all_goals rfl

/-- A formula that is not refused has a table, and every view of it exists.  The views of the table
of a formula that compiles show its rows; those of one that does not are empty but for its
message. -/
theorem tabulate_views (hbuild : lib.BuildsRowWise) (ha : ∀ name ∈ a.atoms, IsPlainName name)
    (source : Source) :
    (∀ e, a.tabulate source = .error e ↔ a.Refuses source e) ∧
    ∀ t, a.tabulate source = .ok t → ∃ c, a.compileSource source = .ok c ∧
      (∀ p, c.outcome = .ok p → lib.AlignsRight t.header → t.Viewed lib c.atoms.length) ∧
      ∀ e, c.outcome = .error e → t.IsEmptyWith lib e.message := by
  refine ⟨fun e => tabulate_eq_error_iff, fun t ht => ?_⟩
  obtain ⟨htokens, rfl⟩ := tokenize_of_tabulate ht
  exact ⟨_, compileSource_of_tokenize htokens,
    fun p h halign => viewed_truthTable hbuild halign ha h,
    fun e h => isEmptyWith_of_outcome_error hbuild h⟩

/-- The label is a name with a space, and repeats that of the atom. -/
theorem tabulate_views_repeated :
    let a : Alphabet := { atoms := ["it rains", "Q"], wordSpellings := true }
    let t : TruthTable :=
      { header := ["it rains", "it rains"], rows := [[false, false], [true, true]] }
    FrameLibrary.standard.BuildsRowWise ∧ (∀ name ∈ a.atoms, IsPlainName name) ∧
      a.tabulate (.text "It Rains") = .ok t ∧ FrameLibrary.standard.AlignsRight t.header ∧
      t.Viewed .standard 1 := by
  intro a t
  have ha : ∀ name ∈ a.atoms, IsPlainName name := by decide
  have ht : a.tabulate (.text "It Rains") = .ok t := by decide +kernel
  have halign : FrameLibrary.standard.AlignsRight t.header :=
    FrameLibrary.standard_alignsRight (by decide) ⟨"it rains", by decide, by decide⟩
  obtain ⟨c, hc, hviewed, _⟩ :=
    (tabulate_views FrameLibrary.standard_buildsRowWise ha (.text "It Rains")).2 t ht
  rw [compileSource_of_tokenize (tokenize_of_tabulate ht).1, Except.ok.injEq] at hc
  rw [← hc] at hviewed
  have houtcome : (a.compile (.text "It Rains")).outcome = .ok [.push "it rains"] := by
    decide +kernel
  have hatoms : (a.compile (.text "It Rains")).atoms.length = 1 := by decide +kernel
  have hview := hviewed _ houtcome halign
  rw [hatoms] at hview
  exact ⟨FrameLibrary.standard_buildsRowWise, ha, ht, halign, hview⟩

example :
    (Alphabet.builder.truthTable (.tokens ["P"])).text .standard = .ok "P P\nF F\nT T" := by
  rfl

/-- With a single backslash for an atom the template of that atom ends in the middle of an escape,
and no table is made. -/
theorem not_tabulate_views :
    ¬ ∀ a : Alphabet, (∀ name ∈ a.atoms, IsPlainName name) → ∀ source,
      ∃ t, a.tabulate source = .ok t ∧ ∃ b, t.isSatisfiable = .ok b := by
  intro h
  obtain ⟨t, ht, _⟩ := h { atoms := ["\\"], wordSpellings := true } (by decide) (.text "x")
  cases ht

end Alphabet

end Sentential
