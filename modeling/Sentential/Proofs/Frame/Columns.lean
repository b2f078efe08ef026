import Sentential.Frame
import Sentential.Proofs.PostfixText
import Mathlib.Data.List.Basic
/-!
# The text of a frame

Every line of the text of a frame is cut at the same places into its columns, and every cell ends
where its column does.  So all lines are equally long, and the cells of a line whose cells have no
blanks can be read back from it.
-/

namespace Sentential

namespace Frame

/-- The lines of a text. -/
def linesOf (text : String) : List String := (text.toList.splitOn '\n').map String.ofList

/-- A line of cells in columns of the given widths: every cell ends where its column ends and has
spaces in front. -/
inductive Ruled : List Nat → List String → List Char → Prop
  | nil : Ruled [] [] []
  | cons {width : Nat} {widths : List Nat} {cell : String} {cells : List String}
      {line : List Char} : cell.length ≤ width → Ruled widths cells line →
      Ruled (width :: widths) (cell :: cells) (cell.toList.leftpad width ' ' ++ line)

/-- No cell is wider than its column. -/
abbrev Fits (widths : List Nat) (cells : List String) : Prop :=
  List.Forall₂ (fun width cell => cell.length ≤ width) widths cells

/-- The widths of columns with a space in front of each but the first. -/
def spaced : List Nat → List Nat
  | [] => []
  | width :: widths => width :: widths.map (· + 1)

/-- The width of every column is that of its widest text. -/
def widest (lines : List (List String)) : List Nat :=
  (lines.map (·.map String.length)).tail.foldl (List.zipWith max)
    ((lines.map (·.map String.length)).headD [])

/-- A row of cells as a line. -/
def lineOf (widths : List Nat) (cells : List String) : String :=
  " ".intercalate (List.zipWith padded widths cells)

theorem aligned_eq (lines : List (List String)) :
    aligned lines = "\n".intercalate (lines.map (lineOf (widest lines))) := rfl

theorem toList_padded (width : Nat) (s : String) :
    (padded width s).toList = s.toList.leftpad width ' ' := String.toList_ofList

/-! ## Columns -/

variable {widths : List Nat} {cells cells' : List String} {line line' : List Char}

theorem Ruled.length_eq (h : Ruled widths cells line) (h' : Ruled widths cells' line') :
    line.length = line'.length := by
  induction h generalizing cells' line' with
  | nil =>
      cases h'
      rfl
  | cons hle _ ih =>
      cases h' with
      | cons hle' h' =>
          rw [List.length_append, List.length_append, List.length_leftpad, List.length_leftpad,
            String.length_toList, String.length_toList, ih h', Nat.max_eq_left hle,
            Nat.max_eq_left hle']

/-- A space in front of a line widens its first column. -/
theorem Ruled.space {width : Nat} (h : Ruled (width :: widths) cells line) :
    Ruled ((width + 1) :: widths) cells (' ' :: line) := by
  cases h with
  | @cons _ _ cell _ rest hle h =>
      have hpad : ' ' :: (cell.toList.leftpad width ' ' ++ rest) =
          cell.toList.leftpad (width + 1) ' ' ++ rest := by
        rw [List.leftpad, List.leftpad, String.length_toList, Nat.succ_sub hle,
          List.replicate_succ, List.cons_append, List.cons_append]
      rw [hpad]
      exact .cons (Nat.le_succ_of_le hle) h

theorem Ruled.notMem {c : Char} (h : Ruled widths cells line) (hc : c ≠ ' ')
    (hcells : ∀ cell ∈ cells, c ∉ cell.toList) : c ∉ line := by
  induction h with
  | nil => exact List.not_mem_nil
  | cons _ _ ih =>
      obtain ⟨hcell, hcells⟩ := List.forall_mem_cons.1 hcells
      rw [List.mem_append, List.leftpad, List.mem_append, List.mem_replicate]
      rintro ((⟨_, rfl⟩ | hmem) | hmem)
      · exact hc rfl
      · exact hcell hmem
      · exact ih hcells hmem

theorem ruled_lineOf (h : Fits widths cells) :
    Ruled (spaced widths) cells (lineOf widths cells).toList := by
  induction h with
  | nil => exact .nil
  | @cons width cell widths cells hle h ih =>
      cases h with
      | nil =>
          have hline : (lineOf [width] [cell]).toList = cell.toList.leftpad width ' ' ++ [] := by
            simp [lineOf, toList_padded]
          rw [hline]
          exact .cons hle .nil
      | @cons width' cell' widths cells hle' h =>
          have hline : (lineOf (width :: width' :: widths) (cell :: cell' :: cells)).toList =
              cell.toList.leftpad width ' ' ++
                ' ' :: (lineOf (width' :: widths) (cell' :: cells)).toList := by
            simp [lineOf, toList_padded]
          rw [hline]
          exact .cons hle ih.space

/-! ## Widths -/

theorem fits_lengths (cells : List String) : Fits (cells.map String.length) cells := by
  induction cells with
  | nil => exact .nil
  | cons cell cells ih => exact .cons (Nat.le_refl _) ih

theorem Fits.zipWith_max {other : List Nat} (h : Fits widths cells)
    (hlength : other.length = widths.length) : Fits (List.zipWith max widths other) cells := by
  induction h generalizing other with
  | nil => exact .nil
  | cons hle _ ih =>
      obtain ⟨n, other, rfl⟩ := List.exists_cons_of_length_eq_add_one hlength
      exact .cons (Nat.le_trans hle (Nat.le_max_left _ n)) (ih (Nat.succ.inj hlength))

theorem Fits.foldl_max {rest : List (List String)} (h : Fits widths cells)
    (hlength : ∀ row ∈ rest, row.length = widths.length) :
    Fits ((rest.map (·.map String.length)).foldl (List.zipWith max) widths) cells := by
  induction rest generalizing widths with
  | nil => exact h
  | cons row rest ih =>
      obtain ⟨hrow, hrest⟩ := List.forall_mem_cons.1 hlength
      have hrow' : (row.map String.length).length = widths.length := by rw [List.length_map, hrow]
      apply ih (h.zipWith_max hrow')
      intro other hother
      rw [List.length_zipWith, hrow', Nat.min_self, hrest other hother]

theorem fits_foldl_max_of_mem {rest : List (List String)}
    (hlength : ∀ row ∈ rest, row.length = widths.length) (hcells : cells ∈ rest) :
    Fits ((rest.map (·.map String.length)).foldl (List.zipWith max) widths) cells := by
  induction rest generalizing widths with
  | nil => cases hcells
  | cons row rest ih =>
      obtain ⟨hrow, hrest⟩ := List.forall_mem_cons.1 hlength
      have hrow' : (row.map String.length).length = widths.length := by rw [List.length_map, hrow]
      have hmax : (List.zipWith max (row.map String.length) widths).length = widths.length := by
        rw [List.length_zipWith, hrow', Nat.min_self]
      have hrest' : ∀ other ∈ rest,
          other.length = (List.zipWith max (row.map String.length) widths).length :=
        fun other hother => (hrest other hother).trans hmax.symm
      rw [List.map_cons, List.foldl_cons, List.zipWith_comm_of_comm Nat.max_comm]
      rcases List.mem_cons.1 hcells with rfl | hcells
      · exact ((fits_lengths cells).zipWith_max hrow'.symm).foldl_max hrest'
      · exact ih hrest' hcells

/-- The columns of a rectangle of cells have room for every row. -/
theorem fits_widest {first : List String} {rest : List (List String)}
    (hlength : ∀ row ∈ rest, row.length = first.length) (hcells : cells ∈ first :: rest) :
    Fits (widest (first :: rest)) cells := by
  have hlength' : ∀ row ∈ rest, row.length = (first.map String.length).length :=
    fun row hrow => by rw [hlength row hrow, List.length_map]
  rcases List.mem_cons.1 hcells with rfl | hcells
  · exact (fits_lengths cells).foldl_max hlength'
  · exact fits_foldl_max_of_mem hlength' hcells

/-! ## Reading a text back -/

theorem parts_append_space (s t : String) : parts (s ++ " " ++ t) = parts s ++ parts t := by
  have htext : (s ++ " " ++ t).toList = s.toList ++ ' ' :: t.toList := by simp
  rw [parts, htext, List.splitOn_append_cons_self, List.filter_append]
  rfl

theorem parts_padded {s : String} (h : IsSeparate s) (width : Nat) :
    parts (padded width s) = [s.toList] := by
  obtain ⟨hne, hspace⟩ := h
  rw [parts, toList_padded, List.leftpad]
  induction width - s.toList.length with
  | zero =>
      rw [List.replicate_zero, List.nil_append, List.splitOn_eq_singleton hspace]
      simpa using hne
  | succ n ih =>
      rw [List.replicate_succ, List.cons_append, List.splitOn_cons_eq_if_modifyHead,
        if_pos (BEq.refl ' '), List.filter_cons_of_neg (by simp), ih]

/-- Cells without blanks can be read back from their line. -/
theorem parts_lineOf (h : Fits widths cells) (hcells : ∀ cell ∈ cells, IsSeparate cell) :
    parts (lineOf widths cells) = cells.map String.toList := by
  induction h with
  | nil => rfl
  | @cons width cell widths cells hle h ih =>
      obtain ⟨hcell, hcells⟩ := List.forall_mem_cons.1 hcells
      cases h with
      | nil =>
          rw [lineOf, List.zipWith_cons_cons, List.zipWith_nil_left, String.intercalate_singleton,
            parts_padded hcell]
          rfl
      | cons hle' h =>
          have hrest := ih hcells
          rw [lineOf, List.zipWith_cons_cons] at hrest
          rw [lineOf, List.zipWith_cons_cons, List.zipWith_cons_cons,
            String.intercalate_cons_cons, parts_append_space, parts_padded hcell, hrest]
          rfl

/-- The lines of a rectangle of cells without line breaks. -/
theorem linesOf_aligned {first : List String} {rest : List (List String)}
    (hlength : ∀ row ∈ rest, row.length = first.length)
    (hbreak : ∀ cells ∈ first :: rest, ∀ cell ∈ cells, '\n' ∉ cell.toList) :
    linesOf (aligned (first :: rest)) =
      (first :: rest).map (lineOf (widest (first :: rest))) := by
  have hline : ∀ line ∈ (first :: rest).map fun cells =>
      (lineOf (widest (first :: rest)) cells).toList, '\n' ∉ line := by
    intro line hline
    obtain ⟨cells, hcells, rfl⟩ := List.mem_map.1 hline
    exact (ruled_lineOf (fits_widest hlength hcells)).notMem (by decide) (hbreak cells hcells)
  have hsplit := List.splitOn_intercalate '\n' hline (by simp)
  have htext : (aligned (first :: rest)).toList = ['\n'].intercalate
      ((first :: rest).map fun cells => (lineOf (widest (first :: rest)) cells).toList) := by
    rw [aligned_eq, String.toList_intercalate, List.map_map]
    rfl
  rw [linesOf, htext, hsplit, List.map_map]
  exact List.map_congr_left fun cells _ => String.ofList_toList

/-! ## The text of a full frame -/

/-- The name has no character that is shown as two. -/
def IsPlainName (name : String) : Prop :=
  '\t' ∉ name.toList ∧ '\n' ∉ name.toList ∧ '\r' ∉ name.toList

instance (name : String) : Decidable (IsPlainName name) :=
  inferInstanceAs (Decidable (_ ∧ _ ∧ _))

/-- A text shows rows of cells under names: a line of the names, and a line for each row.  All lines
have the same columns, and the cells of a row can be read back from its line. -/
structure IsWritten (columns : List String) (rows : List (List String)) (text : String)
    (widths : List Nat) (header : String) (body : List String) : Prop where
  linesOf_eq : linesOf text = header :: body
  length_body : body.length = rows.length
  length_eq : ∀ line ∈ body, line.length = header.length
  header : Ruled widths columns header.toList
  body : ∀ (i : Nat) (cells : List String) (line : String), rows[i]? = some cells →
    body[i]? = some line → Ruled widths cells line.toList ∧ parts line = cells.map String.toList

theorem exists_isWritten_aligned {columns : List String} {rows : List (List String)}
    (hlength : ∀ cells ∈ rows, cells.length = columns.length)
    (hplain : ∀ name ∈ columns, IsPlainName name)
    (hcells : ∀ cells ∈ rows, ∀ cell ∈ cells, IsSeparate cell ∧ '\n' ∉ cell.toList) :
    ∃ widths header body,
      IsWritten columns rows (aligned (columns :: rows)) widths header body := by
  have hbreak : ∀ cells ∈ columns :: rows, ∀ cell ∈ cells, '\n' ∉ cell.toList := by
    intro cells hmem
    rcases List.mem_cons.1 hmem with rfl | hmem
    · exact fun name hname => (hplain name hname).2.1
    · exact fun cell hcell => (hcells cells hmem cell hcell).2
  have hlines := linesOf_aligned hlength hbreak
  have hfits : ∀ cells ∈ columns :: rows, Fits (widest (columns :: rows)) cells :=
    fun _ hmem => fits_widest hlength hmem
  generalize widest (columns :: rows) = widths at hlines hfits
  obtain ⟨hheader, hbody⟩ := List.forall_mem_cons.1 hfits
  refine ⟨spaced widths, lineOf widths columns, rows.map (lineOf widths), ?_⟩
  constructor
  case linesOf_eq => exact hlines
  case length_body => exact List.length_map _
  case length_eq =>
    intro line hline
    obtain ⟨cells, hmem, rfl⟩ := List.mem_map.1 hline
    rw [← String.length_toList, ← String.length_toList,
      (ruled_lineOf (hbody cells hmem)).length_eq (ruled_lineOf hheader)]
  case header => exact ruled_lineOf hheader
  case body =>
    intro i cells line hrow hline
    rw [List.getElem?_map, hrow] at hline
    cases hline
    have hmem := List.mem_of_getElem? hrow
    have hseparate : ∀ cell ∈ cells, IsSeparate cell :=
      fun cell hcell => (hcells cells hmem cell hcell).1
    exact ⟨ruled_lineOf (hbody cells hmem), parts_lineOf (hbody cells hmem) hseparate⟩

end Frame

end Sentential
