import Sentential.Proofs.FileTree
import Sentential.Proofs.FormulaGraph.Page
import Sentential.Proofs.Library.Pages
/-!
# Saved pages

Whether the page of a graph is saved depends on its path and on the folders that are there when the
file is opened.  The path is that of the file, in `graphs` if the file is given without a folder; it
must end in `.html` and not be too long, its folder must exist, and it must not be that of a folder.
-/

namespace Sentential

namespace FormulaGraph

open FileTree

namespace Page

variable {file : String} {t : FileTree}

/-! ## The path -/

theorem isBare_iff : isBare file = true ↔ '/' ∉ file.toList := by
  rw [isBare, String.isEmpty_iff, folderPart_eq_empty_iff]

theorem pathOf_of_bare (h : '/' ∉ file.toList) : pathOf file = "graphs/" ++ file := by
  rw [pathOf, if_pos (isBare_iff.2 h)]
  rfl

theorem pathOf_of_slash (h : '/' ∈ file.toList) : pathOf file = file :=
  if_neg fun hbare => isBare_iff.1 hbare h

theorem slash_mem_pathOf (file : String) : '/' ∈ (pathOf file).toList := by
  by_cases h : '/' ∈ file.toList
  · rwa [pathOf_of_slash h]
  · rw [pathOf_of_bare h, String.toList_append]
    exact List.mem_append_left _ (by decide)

theorem null_notMem_pathOf (h : '\x00' ∉ file.toList) : '\x00' ∉ (pathOf file).toList := by
  by_cases hslash : '/' ∈ file.toList
  · rwa [pathOf_of_slash hslash]
  · rw [pathOf_of_bare hslash, String.toList_append, List.mem_append]
    exact not_or_intro (by decide) h

theorem namesOf_pathOf_of_bare (h : '/' ∉ file.toList) :
    namesOf (pathOf file) = ["graphs", file] := by
  have hpath : (pathOf file).toList = "graphs".toList ++ '/' :: file.toList := by
    rw [pathOf_of_bare h, String.toList_append]
    rfl
  have hfolder : "graphs".toList.splitOn '/' = ["graphs".toList] := by decide
  rw [namesOf, hpath, Text.splitOn_append_cons_last h, hfolder, List.map_append, List.map_singleton,
    List.map_singleton, String.ofList_toList, String.ofList_toList]
  rfl

/-! ## The folders -/

/-- The folders that are there when the file is opened. -/
def treeFor (lib : PageLibrary) (t : FileTree) (file : String) : FileTree :=
  (t.make (madeFolders file)).make lib.scriptFolders

/-- The folder of a file that is given without one has just been made. -/
theorem hasFolder_treeFor_of_bare (lib : PageLibrary) (t : FileTree) (h : '/' ∉ file.toList) :
    (treeFor lib t file).HasFolder (folderPart (pathOf file)) := by
  have hmade : t.working ++ ["graphs"] ∈ (treeFor lib t file).folders := by
    have hmem : ["graphs"] ∈ madeFolders file := by
      rw [madeFolders, if_pos (isBare_iff.2 h)]
      exact List.mem_singleton.2 rfl
    exact List.mem_append_left _ (List.mem_append_right _ (List.mem_map_of_mem hmem))
  have hstart : (treeFor lib t file).startOf (pathOf file) = t.working := by
    rw [startOf, pathOf_of_bare h, String.toList_append]
    rfl
  have hfollow : (treeFor lib t file).follow t.working "graphs" =
      some (t.working ++ ["graphs"]) := by
    rw [follow, if_neg (by decide), if_neg (by decide), if_pos (List.contains_iff_mem.2 hmade)]
  -- one name stands in front of the last one, and it leads to the folder just made
  rw [← hasWay_iff_hasFolder (slash_mem_pathOf file), HasWay, namesOf_pathOf_of_bare h,
    List.dropLast_cons_cons, List.dropLast_singleton, hstart, List.foldlM_cons, hfollow]
  exact ⟨_, rfl⟩

/-- The folder of a file with too long a name is there nevertheless. -/
theorem openError?_of_bare (lib : PageLibrary) (t : FileTree) (h : '/' ∉ file.toList)
    (hlong : longestName < file.utf8ByteSize) :
    (treeFor lib t file).openError? (pathOf file) = some .tooLong := by
  have hnot : ¬ IsShort (pathOf file) := by
    intro hshort
    have hmem : file ∈ namesOf (pathOf file) := by
      rw [namesOf_pathOf_of_bare h]
      simp
    exact Nat.not_lt.2 (hshort.names file hmem) hlong
  rcases openError?_of_not_isShort (slash_mem_pathOf file) hnot with hopen | ⟨hfolder, _⟩
  · exact hopen
  · exact absurd (hasFolder_treeFor_of_bare lib t h) hfolder

end Page

/-! ## The outcome -/

/-- The name of the page's file ends as it must. -/
def IsHtml (path : String) : Prop := ".html".toList <:+ path.toList

instance (path : String) : Decidable (IsHtml path) :=
  inferInstanceAs (Decidable (".html".toList <:+ path.toList))

section Parts

variable {path : String}

theorem point_mem_of_isHtml (h : IsHtml path) : '.' ∈ path.toList := h.subset (by decide)

theorem getLast?_parts_iff_isHtml (h : '.' ∈ path.toList) :
    (path.toList.splitOn '.').getLast? = some "html".toList ↔ IsHtml path :=
  Text.getLast?_splitOn_eq_some_iff h (by decide)

theorem two_le_length_parts (h : '.' ∈ path.toList) : 2 ≤ (path.toList.splitOn '.').length :=
  Nat.le_of_not_lt fun hlt => Text.length_splitOn_lt_two_iff.1 hlt h

/-- A path with a point is cut into two parts at least, the last of which is what it ends in. -/
theorem hasHtmlParts_of_isHtml (h : IsHtml path) : HasHtmlParts path :=
  ⟨two_le_length_parts (point_mem_of_isHtml h),
    (getLast?_parts_iff_isHtml (point_mem_of_isHtml h)).2 h⟩

end Parts

section Outcome

variable {g : FormulaGraph} {lib : PageLibrary} {t : FileTree} {file height width : String}

theorem savePage_of_save_error {e : SaveError}
    (h : lib.save (g.network height width) (t.make (Page.madeFolders file)) (Page.pathOf file) =
      .error e) : g.savePage lib t file height width = .error e := by
  rw [savePage, h]
  rfl

theorem savePage_of_save_ok {page : Page}
    (h : lib.save (g.network height width) (t.make (Page.madeFolders file)) (Page.pathOf file) =
      .ok page) : g.savePage lib t file height width = .ok ⟨Page.pathOf file, page⟩ := by
  rw [savePage, h]
  rfl

variable (hlib : lib.SavesHtml) (hsimple : (g.network height width).IsSimple)

include hlib hsimple

theorem savePage_of_not_point (h : '.' ∉ (Page.pathOf file).toList) :
    g.savePage lib t file height width =
      .error (.refused ("invalid file type for " ++ Page.pathOf file)) :=
  savePage_of_save_error
    (hlib.noExtension _ _ _ hsimple (Text.length_splitOn_lt_two_iff.2 h))

theorem savePage_of_not_isHtml (h : '.' ∈ (Page.pathOf file).toList)
    (hhtml : ¬ IsHtml (Page.pathOf file)) :
    g.savePage lib t file height width =
      .error (.refused (Page.pathOf file ++ " is not a valid html file")) :=
  savePage_of_save_error (hlib.otherExtension _ _ _ hsimple (two_le_length_parts h)
    (mt (getLast?_parts_iff_isHtml h).1 hhtml))

variable (hnull : '\x00' ∉ file.toList)

include hnull

theorem savePage_of_openError {e : OpenError} (hhtml : IsHtml (Page.pathOf file))
    (h : (Page.treeFor lib t file).openError? (Page.pathOf file) = some e) :
    g.savePage lib t file height width = .error (.unopened e (Page.pathOf file)) :=
  savePage_of_save_error (hlib.unopened _ _ _ e hsimple (hasHtmlParts_of_isHtml hhtml)
    (Page.null_notMem_pathOf hnull) h)

theorem savePage_of_opened (hhtml : IsHtml (Page.pathOf file))
    (h : (Page.treeFor lib t file).openError? (Page.pathOf file) = none) :
    g.savePage lib t file height width =
      .ok ⟨Page.pathOf file, (g.network height width).page⟩ :=
  savePage_of_save_ok (hlib.saved _ _ _ hsimple (hasHtmlParts_of_isHtml hhtml)
    (Page.null_notMem_pathOf hnull) h)

theorem savePage_cases (t : FileTree) :
    ('.' ∉ (Page.pathOf file).toList ∧ ¬ IsHtml (Page.pathOf file) ∧
      g.savePage lib t file height width =
        .error (.refused ("invalid file type for " ++ Page.pathOf file))) ∨
    ('.' ∈ (Page.pathOf file).toList ∧ ¬ IsHtml (Page.pathOf file) ∧
      g.savePage lib t file height width =
        .error (.refused (Page.pathOf file ++ " is not a valid html file"))) ∨
    ('.' ∈ (Page.pathOf file).toList ∧ IsHtml (Page.pathOf file) ∧
      g.savePage lib t file height width =
        match (Page.treeFor lib t file).openError? (Page.pathOf file) with
        | some e => .error (.unopened e (Page.pathOf file))
        | none => .ok ⟨Page.pathOf file, (g.network height width).page⟩) := by
  by_cases hhtml : IsHtml (Page.pathOf file)
  · refine .inr (.inr ⟨point_mem_of_isHtml hhtml, hhtml, ?_⟩)
    cases hopen : (Page.treeFor lib t file).openError? (Page.pathOf file) with
    | some e => exact savePage_of_openError hlib hsimple hnull hhtml hopen
    | none => exact savePage_of_opened hlib hsimple hnull hhtml hopen
  · by_cases hpoint : '.' ∈ (Page.pathOf file).toList
    · exact .inr (.inl ⟨hpoint, hhtml, savePage_of_not_isHtml hlib hsimple hpoint hhtml⟩)
    · exact .inl ⟨hpoint, hhtml, savePage_of_not_point hlib hsimple hpoint⟩

end Outcome

/-! ## Saving -/

section Saving

variable {f : Formula} {lib : PageLibrary} {t : FileTree} {file height width : String}
variable (hlib : lib.SavesHtml) (hnull : '\x00' ∉ file.toList)

theorem noExtension_ne_otherExtension (path : String) :
    "invalid file type for " ++ path ≠ path ++ " is not a valid html file" := by
  intro h
  have hlength := congrArg String.length h
  rw [String.length_append, String.length_append] at hlength
  have hfirst : "invalid file type for ".length = 22 := rfl
  have hsecond : " is not a valid html file".length = 25 := rfl
  omega

include hlib hnull

theorem savePage_eq_ok_iff {s : SavedPage} :
    f.graph.savePage lib t file height width = .ok s ↔
      (IsHtml (Page.pathOf file) ∧
        (Page.treeFor lib t file).openError? (Page.pathOf file) = none) ∧
      s = ⟨Page.pathOf file, (f.graph.network height width).page⟩ := by
  rcases savePage_cases hlib (isSimple_network f height width) hnull t with
    ⟨_, hhtml, hsave⟩ | ⟨_, hhtml, hsave⟩ | ⟨_, hhtml, hsave⟩
  · simp [*]
  · simp [*]
  · rw [hsave]
    cases (Page.treeFor lib t file).openError? (Page.pathOf file) with
    | some e => simp
    | none => simp [hhtml, eq_comm]

theorem savePage_eq_unopened_iff {e : OpenError} :
    f.graph.savePage lib t file height width = .error (.unopened e (Page.pathOf file)) ↔
      IsHtml (Page.pathOf file) ∧
        (Page.treeFor lib t file).openError? (Page.pathOf file) = some e := by
  rcases savePage_cases hlib (isSimple_network f height width) hnull t with
    ⟨_, hhtml, hsave⟩ | ⟨_, hhtml, hsave⟩ | ⟨_, hhtml, hsave⟩
  · simp [*]
  · simp [*]
  · rw [hsave]
    cases (Page.treeFor lib t file).openError? (Page.pathOf file) with
    | some e => simp [hhtml]
    | none => simp

theorem savePage_eq_noExtension_iff :
    f.graph.savePage lib t file height width =
        .error (.refused ("invalid file type for " ++ Page.pathOf file)) ↔
      '.' ∉ (Page.pathOf file).toList := by
  rcases savePage_cases hlib (isSimple_network f height width) hnull t with
    ⟨hpoint, _, hsave⟩ | ⟨hpoint, _, hsave⟩ | ⟨hpoint, _, hsave⟩
  · simp [*]
  · simp [*, (noExtension_ne_otherExtension (Page.pathOf file)).symm]
  · rw [hsave]
    cases (Page.treeFor lib t file).openError? (Page.pathOf file) <;> simp [hpoint]

theorem savePage_eq_otherExtension_iff :
    f.graph.savePage lib t file height width =
        .error (.refused (Page.pathOf file ++ " is not a valid html file")) ↔
      '.' ∈ (Page.pathOf file).toList ∧ ¬ IsHtml (Page.pathOf file) := by
  rcases savePage_cases hlib (isSimple_network f height width) hnull t with
    ⟨hpoint, _, hsave⟩ | ⟨hpoint, hhtml, hsave⟩ | ⟨hpoint, hhtml, hsave⟩
  · simp [*, noExtension_ne_otherExtension (Page.pathOf file)]
  · simp [*]
  · rw [hsave]
    cases (Page.treeFor lib t file).openError? (Page.pathOf file) <;> simp [hhtml]

end Saving

/-- What comes of saving the graph of a program as a page with the given path. -/
structure IsSavedAt (p : Program) (g : FormulaGraph) (lib : PageLibrary) (t : FileTree)
    (file height width path : String) : Prop where
  path_eq : path = if '/' ∈ file.toList then file else "graphs/" ++ file
  ok_iff : (∃ page, g.savePage lib t file height width = .ok ⟨path, page⟩) ↔
    ".html".toList <:+ path.toList ∧ IsShort path ∧
      (Page.treeFor lib t file).HasFolder (folderPart path) ∧
      ¬ (Page.treeFor lib t file).HasFolder path
  noExtension_iff :
    g.savePage lib t file height width = .error (.refused ("invalid file type for " ++ path)) ↔
      '.' ∉ path.toList
  otherExtension_iff :
    g.savePage lib t file height width =
        .error (.refused (path ++ " is not a valid html file")) ↔
      '.' ∈ path.toList ∧ ¬ ".html".toList <:+ path.toList
  isFolder_iff : g.savePage lib t file height width = .error (.unopened .isFolder path) ↔
    ".html".toList <:+ path.toList ∧ IsShort path ∧
      (Page.treeFor lib t file).HasFolder (folderPart path) ∧
      (Page.treeFor lib t file).HasFolder path
  missing_iff : IsShort path →
    (g.savePage lib t file height width = .error (.unopened .missing path) ↔
      ".html".toList <:+ path.toList ∧
        ¬ (Page.treeFor lib t file).HasFolder (folderPart path))
  /-- Whether the length of a path or the lack of its folder counts depends on what comes first. -/
  tooLong : ".html".toList <:+ path.toList → ¬ IsShort path →
    g.savePage lib t file height width = .error (.unopened .tooLong path) ∨
      (¬ (Page.treeFor lib t file).HasFolder (folderPart path) ∧
        g.savePage lib t file height width = .error (.unopened .missing path))
  /-- A file that is given without a folder has one in any case. -/
  hasFolder_of_bare : '/' ∉ file.toList →
    (Page.treeFor lib t file).HasFolder (folderPart path)
  shows : ∀ s, g.savePage lib t file height width = .ok s → s.path = path ∧ s.page.Shows p g

end FormulaGraph

end Sentential
