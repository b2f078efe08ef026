import Sentential.Library.Frames
import Sentential.Proofs.Frame.Columns
/-!
# What the library of frames does with full rows

Full rows are kept as they are.  Names that have nothing to be shown otherwise and of which one
begins without a blank are written as they are, so full rows are written under them in right-aligned
columns.
-/

namespace Sentential

namespace Frame

variable {α : Type} {columns : List String}

theorem longest_of_length {rows : List (List α)} {n : Nat} (hne : rows ≠ [])
    (h : ∀ row ∈ rows, row.length = n) : longest rows = n := by
  have hfold : ∀ rows : List (List α), (∀ row ∈ rows, row.length = n) →
      rows.foldl (fun m row => max m row.length) n = n := by
    intro rows h
    induction rows with
    | nil => rfl
    | cons row rows ih =>
        obtain ⟨hrow, hrows⟩ := List.forall_mem_cons.1 h
        rw [List.foldl_cons, hrow, Nat.max_self, ih hrows]
  obtain ⟨row, rows, rfl⟩ := List.exists_cons_of_ne_nil hne
  obtain ⟨hrow, hrows⟩ := List.forall_mem_cons.1 h
  rw [longest, List.foldl_cons, hrow, Nat.zero_max, hfold rows hrows]

theorem fill_of_length {row : List α} {width : Nat} (h : row.length = width) :
    fill width row = row.map some := by
  simp [fill, List.rightpad, h]

theorem ofRows_of_length {rows : List (List α)}
    (h : ∀ row ∈ rows, row.length = columns.length) :
    ofRows columns rows = .ok (full columns rows) := by
  have hfits : (rows.isEmpty || decide (longest rows = columns.length)) = true := by
    rcases eq_or_ne rows [] with rfl | hne
    · rfl
    · simp [longest_of_length hne h]
  rw [ofRows, if_pos hfits, full]
  congr 2
  exact List.map_congr_left fun row hrow => fill_of_length (h row hrow)

/-! ## Names -/

theorem shownName_of_isPlainName {name : String} (h : IsPlainName name) :
    shownName name = name := by
  obtain ⟨htab, hnewline, hreturn⟩ := h
  have hself : (name.toList.flatMap fun c =>
      if c = '\t' then ['\\', 't'] else if c = '\n' then ['\\', 'n']
      else if c = '\r' then ['\\', 'r'] else [c]) = name.toList.flatMap fun c => [c] := by
    apply List.flatMap_congr
    intro c hc
    rw [if_neg (ne_of_mem_of_not_mem hc htab), if_neg (ne_of_mem_of_not_mem hc hnewline),
      if_neg (ne_of_mem_of_not_mem hc hreturn)]
  rw [shownName, hself, List.flatMap_singleton', String.ofList_toList]

/-- A name that begins without a blank keeps the blanks in front of the others. -/
theorem outdented_self (h : ∃ name ∈ columns, indentation name = 0) :
    outdented columns = columns := by
  have hmin : (columns.map indentation).min?.getD 0 = 0 := by
    have hmem : 0 ∈ columns.map indentation := List.mem_map.2 h
    cases hmin : (columns.map indentation).min? with
    | none => rfl
    | some n => exact Nat.le_zero.1 ((List.min?_eq_some_iff.1 hmin).2 0 hmem)
  rw [outdented, hmin]
  simp

end Frame

namespace FrameLibrary

variable {columns : List String}

theorem standard_buildsRowWise : standard.BuildsRowWise :=
  fun _ _ h => Frame.ofRows_of_length h

theorem standard_alignsRight (hplain : ∀ name ∈ columns, Frame.IsPlainName name)
    (hfirst : ∃ name ∈ columns, Frame.indentation name = 0) : standard.AlignsRight columns := by
  intro rows hrows _ _
  have hcolumns : columns ≠ [] := by
    rintro rfl
    simp at hfirst
  have hshown : columns.map Frame.shownName = columns := by
    conv_rhs => rw [← List.map_id columns]
    exact List.map_congr_left fun name hname => Frame.shownName_of_isPlainName (hplain name hname)
  have hcells : (rows.map (·.map some)).map (·.map (·.getD Frame.missingText)) = rows := by
    simp [Function.comp_def]
  show Frame.text (.full columns rows) = _
  rw [Frame.text, Frame.full, if_neg (by simp [hcolumns, hrows]), hshown, hcells,
    Frame.outdented_self hfirst]

end FrameLibrary

end Sentential
