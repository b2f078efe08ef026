import Sentential.FileTree
/-!
# The folder of a file

A path is cut at its slashes, and a file can be opened if all names in front of the last one lead to
a folder, and the last one does not.  The names in front lead to a folder exactly if the folder part
of the path does: the slashes that it leaves out separate empty names, which lead nowhere else.
-/

namespace Sentential

/-! ## Texts cut at a character -/

namespace Text

variable {c : Char} {s before after : List Char}

theorem exists_last_of_mem (h : c ∈ s) : ∃ before after, s = before ++ c :: after ∧ c ∉ after := by
  obtain ⟨back, front, hreverse, hback⟩ := List.eq_append_cons_of_mem (List.mem_reverse.2 h)
  refine ⟨front.reverse, back.reverse, ?_, by simpa using hback⟩
  rw [← List.reverse_reverse s, hreverse]
  simp

theorem splitOn_append_cons_last (h : c ∉ after) :
    (before ++ c :: after).splitOn c = before.splitOn c ++ [after] := by
  rw [List.splitOn_append_cons_self, List.splitOn_eq_singleton h]

theorem length_splitOn_lt_two_iff : (s.splitOn c).length < 2 ↔ c ∉ s := by
  constructor
  · intro hlength hmem
    obtain ⟨before, after, rfl, hafter⟩ := exists_last_of_mem hmem
    have hpos := List.length_pos_iff.2 (List.splitOn_ne_nil c before)
    rw [splitOn_append_cons_last hafter, List.length_append, List.length_singleton] at hlength
    omega
  · intro hmem
    rw [List.splitOn_eq_singleton hmem, List.length_singleton]
    omega

/-- The last part is told by the end of the text. -/
theorem getLast?_splitOn_eq_some_iff (hmem : c ∈ s) (hafter : c ∉ after) :
    (s.splitOn c).getLast? = some after ↔ c :: after <:+ s := by
  constructor
  · intro hlast
    obtain ⟨before, last, rfl, hnot⟩ := exists_last_of_mem hmem
    rw [splitOn_append_cons_last hnot, List.getLast?_concat, Option.some_inj] at hlast
    rw [hlast]
    exact List.suffix_append _ _
  · rintro ⟨before, rfl⟩
    rw [splitOn_append_cons_last hafter, List.getLast?_concat]

theorem splitOn_append_replicate (s : List Char) (c : Char) (n : Nat) :
    (s ++ List.replicate n c).splitOn c = s.splitOn c ++ List.replicate n [] := by
  induction n with
  | zero => simp
  | succ n ih =>
      have hlast : s ++ List.replicate (n + 1) c = (s ++ List.replicate n c) ++ c :: [] := by
        rw [List.replicate_succ', List.append_assoc]
      rw [hlast, splitOn_append_cons_last List.not_mem_nil, ih, List.append_assoc,
        ← List.replicate_succ']

/-- Read backwards, a text without a character is passed over in the search for it. -/
theorem dropWhile_ne_reverse_append (h : c ∉ s) (t : List Char) :
    (s.reverse ++ t).dropWhile (fun d => d ≠ c) = t.dropWhile (fun d => d ≠ c) := by
  refine List.dropWhile_append_of_pos fun d hd => ?_
  exact decide_eq_true (ne_of_mem_of_not_mem (List.mem_reverse.1 hd) h)

/-- Only copies of a character are cut off when it is dropped at the end. -/
theorem exists_append_replicate (s : List Char) (c : Char) :
    ∃ kept n, s = kept ++ List.replicate n c ∧
      s.reverse.dropWhile (fun d => d = c) = kept.reverse := by
  let dropped := s.reverse.takeWhile fun d => d = c
  have hdropped : dropped = List.replicate dropped.length c := by
    refine List.eq_replicate_of_mem fun d hd => ?_
    simpa using List.all_eq_true.1 List.all_takeWhile d hd
  refine ⟨(s.reverse.dropWhile fun d => d = c).reverse, dropped.length, ?_, ?_⟩
  · rw [← List.reverse_replicate, ← hdropped, ← List.reverse_append,
      List.takeWhile_append_dropWhile, List.reverse_reverse]
  · rw [List.reverse_reverse]

end Text

namespace FileTree

/-! ## The folder part of a path -/

/-- A path with a slash is its folder part, the slashes behind that, and the last name.  Only
slashes in front of all names are kept in the folder part. -/
theorem exists_folderPart {path : String} (h : '/' ∈ path.toList) :
    ∃ kept n name, path.toList = kept ++ List.replicate n '/' ++ '/' :: name ∧ '/' ∉ name ∧
      (folderPart path).toList = if kept = [] then List.replicate (n + 1) '/' else kept := by
  obtain ⟨before, name, hpath, hname⟩ := Text.exists_last_of_mem h
  obtain ⟨kept, n, rfl, hkept⟩ := Text.exists_append_replicate before '/'
  have hback : path.toList.reverse.dropWhile (fun d => d ≠ '/') =
      '/' :: (kept ++ List.replicate n '/').reverse := by
    rw [hpath, List.reverse_append, List.reverse_cons, List.append_assoc,
      Text.dropWhile_ne_reverse_append hname]
    simp
  refine ⟨kept, n, name, hpath, hname, ?_⟩
  simp only [folderPart, hback, List.dropWhile_cons, hkept]
  by_cases hnil : kept = []
  · subst hnil
    simp [List.replicate_succ']
  · simp [hnil]

theorem folderPart_eq_empty_iff {file : String} : folderPart file = "" ↔ '/' ∉ file.toList := by
  constructor
  · intro hempty hmem
    obtain ⟨kept, n, name, _, _, hpart⟩ := exists_folderPart hmem
    rw [hempty] at hpart
    by_cases hnil : kept = []
    · simp [hnil, List.replicate_succ] at hpart
    · simp [hnil, eq_comm] at hpart
  · intro hmem
    have hback : file.toList.reverse.dropWhile (fun d => d ≠ '/') = [] := by
      rw [← List.append_nil file.toList.reverse, Text.dropWhile_ne_reverse_append hmem]
      rfl
    simp only [folderPart, hback]
    rfl

/-! ## Following a path -/

section Following

variable (t : FileTree) (place : List String)

theorem follow_empty : t.follow place "" = some place := rfl

theorem foldlM_follow_replicate (n : Nat) :
    (List.replicate n "").foldlM t.follow place = some place := by
  induction n with
  | zero => rfl
  | succ n ih =>
      rw [List.replicate_succ, List.foldlM_cons, follow_empty]
      exact ih

/-- Empty names at the end of a path change nothing. -/
theorem foldlM_follow_append_replicate (names : List String) (n : Nat) :
    (names ++ List.replicate n "").foldlM t.follow place = names.foldlM t.follow place := by
  rw [List.foldlM_append]
  cases names.foldlM t.follow place with
  | none => rfl
  | some place' => exact foldlM_follow_replicate t place' n

end Following

/-- The path leads to a folder. -/
def HasFolder (t : FileTree) (path : String) : Prop := ∃ place, t.folderAt? path = some place

variable {t : FileTree} {path : String}

theorem hasFolder_iff_isSome : t.HasFolder path ↔ (t.folderAt? path).isSome = true :=
  Option.isSome_iff_exists.symm

theorem dropLast_namesOf {kept name : List Char} {n : Nat} (hname : '/' ∉ name)
    (hpath : path.toList = kept ++ List.replicate n '/' ++ '/' :: name) :
    (namesOf path).dropLast = (kept.splitOn '/').map String.ofList ++ List.replicate n "" := by
  rw [namesOf, hpath, Text.splitOn_append_cons_last hname, List.map_append, List.map_singleton,
    List.dropLast_concat, Text.splitOn_append_replicate, List.map_append, List.map_replicate,
    String.ofList_nil]

theorem startOf_of_append {kept rest : List Char} (hkept : kept ≠ []) {path part : String}
    (hpath : path.toList = kept ++ rest) (hpart : part.toList = kept) :
    t.startOf part = t.startOf path := by
  obtain ⟨c, kept, rfl⟩ := List.exists_cons_of_ne_nil hkept
  rw [startOf, startOf, hpath, hpart]
  rfl

/-- All names of the path but the last lead to a folder. -/
def HasWay (t : FileTree) (path : String) : Prop :=
  ∃ place, (namesOf path).dropLast.foldlM t.follow (t.startOf path) = some place

/-- The names in front of the last one lead to a folder exactly if the folder part of the path
does. -/
theorem hasWay_iff_hasFolder (h : '/' ∈ path.toList) :
    t.HasWay path ↔ t.HasFolder (folderPart path) := by
  obtain ⟨kept, n, name, hpath, hname, hpart⟩ := exists_folderPart h
  rw [HasWay, HasFolder, dropLast_namesOf hname hpath, foldlM_follow_append_replicate, folderAt?,
    namesOf, hpart]
  by_cases hnil : kept = []
  · -- nothing but slashes in front of the name: there is no name to follow on either way
    have hslashes : (List.replicate (n + 1) '/').splitOn '/' = [] :: List.replicate (n + 1) [] :=
      Text.splitOn_append_replicate [] '/' (n + 1)
    rw [if_pos hnil, hnil, hslashes, List.splitOn_nil, ← List.replicate_succ, List.map_replicate,
      String.ofList_nil, foldlM_follow_replicate]
    exact iff_of_true ⟨_, rfl⟩ ⟨_, rfl⟩
  · rw [if_neg hnil] at hpart ⊢
    rw [List.append_assoc] at hpath
    rw [startOf_of_append hnil hpath hpart]

theorem exists_namesOf_eq (path : String) :
    ∃ last, namesOf path = (namesOf path).dropLast ++ [last] ∧
      (namesOf path).getLast?.getD "" = last := by
  have hne : namesOf path ≠ [] := by
    rw [namesOf, ne_eq, List.map_eq_nil_iff]
    exact List.splitOn_ne_nil '/' path.toList
  refine ⟨(namesOf path).getLast hne, (List.dropLast_concat_getLast hne).symm, ?_⟩
  rw [List.getLast?_eq_some_getLast hne, Option.getD_some]

/-! ## Opening a file -/

/-- Neither the path nor one of its names is too long. -/
structure IsShort (path : String) : Prop where
  whole : path.utf8ByteSize ≤ longestPath
  names : ∀ name ∈ namesOf path, name.utf8ByteSize ≤ longestName

instance (path : String) : Decidable (IsShort path) :=
  decidable_of_iff
    (path.utf8ByteSize ≤ longestPath ∧ ∀ name ∈ namesOf path, name.utf8ByteSize ≤ longestName)
    ⟨fun h => ⟨h.1, h.2⟩, fun h => ⟨h.whole, h.names⟩⟩

section Entering

variable {place place' : List String} {name : String} {names : List String} {e : OpenError}

theorem enter_of_lt (h : longestName < name.utf8ByteSize) :
    t.enter place name = .error .tooLong := if_pos h

theorem enter_of_le (h : name.utf8ByteSize ≤ longestName) :
    t.enter place name = match t.follow place name with
      | some place' => .ok place'
      | none => .error .missing :=
  if_neg (Nat.not_lt.2 h)

theorem foldlM_enter_of_ok (h : names.foldlM t.enter place = .ok place') :
    (∀ name ∈ names, name.utf8ByteSize ≤ longestName) ∧
      names.foldlM t.follow place = some place' := by
  induction names generalizing place with
  | nil =>
      cases h
      exact ⟨by simp, rfl⟩
  | cons name names ih =>
      rw [List.foldlM_cons] at h ⊢
      by_cases hlong : longestName < name.utf8ByteSize
      · rw [enter_of_lt hlong] at h
        cases h
      · have hle := Nat.le_of_not_lt hlong
        rw [enter_of_le hle] at h
        cases hfollow : t.follow place name with
        | none =>
            rw [hfollow] at h
            cases h
        | some next =>
            rw [hfollow] at h
            obtain ⟨hnames, hrest⟩ := ih h
            exact ⟨List.forall_mem_cons.2 ⟨hle, hnames⟩, hrest⟩

/-- The way to a folder breaks off where there is none, or at a name that is too long. -/
theorem foldlM_enter_of_error (h : names.foldlM t.enter place = .error e) :
    (e = .missing ∧ names.foldlM t.follow place = none) ∨
      (e = .tooLong ∧ ∃ name ∈ names, longestName < name.utf8ByteSize) := by
  induction names generalizing place with
  | nil => cases h
  | cons name names ih =>
      rw [List.foldlM_cons] at h ⊢
      by_cases hlong : longestName < name.utf8ByteSize
      · rw [enter_of_lt hlong] at h
        cases h
        exact .inr ⟨rfl, name, by simp, hlong⟩
      · rw [enter_of_le (Nat.le_of_not_lt hlong)] at h
        cases hfollow : t.follow place name with
        | none =>
            rw [hfollow] at h
            cases h
            exact .inl ⟨rfl, rfl⟩
        | some next =>
            rw [hfollow] at h
            rcases ih h with ⟨rfl, hnone⟩ | ⟨rfl, long, hmem, hlong⟩
            · exact .inl ⟨rfl, hnone⟩
            · exact .inr ⟨rfl, long, by simp [hmem], hlong⟩

end Entering

/-- A file at a short path is opened where its folder is, unless there is a folder in its own place.
On a path that is too long either that or a missing folder stops it. -/
theorem openError?_cases (t : FileTree) (path : String) :
    (¬ IsShort path ∧ (t.openError? path = some .tooLong ∨
      (¬ t.HasWay path ∧ t.openError? path = some .missing))) ∨
    (IsShort path ∧ ¬ t.HasWay path ∧ t.openError? path = some .missing) ∨
    (IsShort path ∧ t.HasWay path ∧ t.HasFolder path ∧ t.openError? path = some .isFolder) ∨
    (IsShort path ∧ t.HasWay path ∧ ¬ t.HasFolder path ∧ t.openError? path = none) := by
  obtain ⟨last, hnames, hlast⟩ := exists_namesOf_eq path
  by_cases hpath : longestPath < path.utf8ByteSize
  · exact .inl ⟨fun h => Nat.not_lt.2 h.whole hpath, .inl (if_pos hpath)⟩
  have hopen : t.openError? path = _ := if_neg hpath
  cases hentered : (namesOf path).dropLast.foldlM t.enter (t.startOf path) with
  | error e =>
      rw [hentered] at hopen
      rcases foldlM_enter_of_error hentered with ⟨rfl, hnone⟩ | ⟨rfl, name, hmem, hlong⟩
      · have hway : ¬ t.HasWay path := by
          rintro ⟨place, hplace⟩
          cases hnone.symm.trans hplace
        by_cases hshort : IsShort path
        · exact .inr (.inl ⟨hshort, hway, hopen⟩)
        · exact .inl ⟨hshort, .inr ⟨hway, hopen⟩⟩
      · refine .inl ⟨fun h => Nat.not_lt.2 (h.names name ?_) hlong, .inl hopen⟩
        exact List.dropLast_subset _ hmem
  | ok place =>
      obtain ⟨hfront, hplace⟩ := foldlM_enter_of_ok hentered
      have hfolder : t.folderAt? path = t.follow place last := by
        rw [folderAt?, hnames, List.foldlM_append, hplace]
        exact bind_pure (t.follow place last)
      simp only [hentered, hlast] at hopen
      by_cases hlong : longestName < last.utf8ByteSize
      · rw [enter_of_lt hlong] at hopen
        refine .inl ⟨fun h => Nat.not_lt.2 (h.names last ?_) hlong, .inl hopen⟩
        rw [hnames]
        simp
      · have hle := Nat.le_of_not_lt hlong
        have hshort : IsShort path := by
          refine ⟨Nat.le_of_not_lt hpath, ?_⟩
          rw [hnames, List.forall_mem_append]
          exact ⟨hfront, List.forall_mem_singleton.2 hle⟩
        rw [enter_of_le hle] at hopen
        cases hfollow : t.follow place last with
        | some place' =>
            rw [hfollow] at hopen hfolder
            exact .inr (.inr (.inl ⟨hshort, ⟨place, hplace⟩, ⟨place', hfolder⟩, hopen⟩))
        | none =>
            rw [hfollow] at hopen hfolder
            refine .inr (.inr (.inr ⟨hshort, ⟨place, hplace⟩, ?_, hopen⟩))
            rintro ⟨place', hplace'⟩
            cases hfolder.symm.trans hplace'

section Opening

variable (h : '/' ∈ path.toList)

include h

theorem openError?_eq_none_iff :
    t.openError? path = none ↔
      IsShort path ∧ t.HasFolder (folderPart path) ∧ ¬ t.HasFolder path := by
  rw [← hasWay_iff_hasFolder h]
  rcases openError?_cases t path with ⟨hshort, hopen | ⟨_, hopen⟩⟩ | ⟨_, hway, hopen⟩ |
    ⟨_, _, hfolder, hopen⟩ | ⟨hshort, hway, hfolder, hopen⟩ <;> simp [*]

theorem openError?_eq_isFolder_iff :
    t.openError? path = some .isFolder ↔
      IsShort path ∧ t.HasFolder (folderPart path) ∧ t.HasFolder path := by
  rw [← hasWay_iff_hasFolder h]
  rcases openError?_cases t path with ⟨hshort, hopen | ⟨_, hopen⟩⟩ | ⟨_, hway, hopen⟩ |
    ⟨hshort, hway, hfolder, hopen⟩ | ⟨_, _, hfolder, hopen⟩ <;> simp [*]

theorem openError?_eq_missing_iff (hshort : IsShort path) :
    t.openError? path = some .missing ↔ ¬ t.HasFolder (folderPart path) := by
  rw [← hasWay_iff_hasFolder h]
  rcases openError?_cases t path with ⟨hlong, _⟩ | ⟨_, hway, hopen⟩ | ⟨_, hway, _, hopen⟩ |
    ⟨_, hway, _, hopen⟩ <;> simp_all

theorem openError?_of_not_isShort (hlong : ¬ IsShort path) :
    t.openError? path = some .tooLong ∨
      (¬ t.HasFolder (folderPart path) ∧ t.openError? path = some .missing) := by
  rw [← hasWay_iff_hasFolder h]
  rcases openError?_cases t path with ⟨_, hopen⟩ | ⟨hshort, _⟩ | ⟨hshort, _⟩ | ⟨hshort, _⟩
  · exact hopen
  all_goals exact absurd hshort hlong

end Opening

end FileTree

end Sentential
