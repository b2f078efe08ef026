import Mathlib.Data.List.Induction
import Sentential.Region.Shading
/-!
# Runs of edits

Two kinds of edits are left once those that fail are set aside.  Clearing and reducing to one region
set all regions at once, whatever was shaded before.  A toggle reverses the region it names and
keeps the others.  What a run leaves of a region is therefore what the last edit of the first kind
made of it, reversed once for every toggle of the region that came later.
-/

namespace Sentential

namespace Region

theorem mem_all (r : Region) : r ∈ all := by cases r <;> decide

theorem name_injective : Function.Injective name := by
  intro q r h
  cases q <;> cases r <;> first | rfl | exact absurd h (by decide)

theorem ofName_name (r : Region) : ofName r.name = .ok r := by cases r <;> rfl

theorem mem_names_iff {name : String} :
    name ∈ ["left_only", "right_only", "both"] ↔ ∃ r : Region, r.name = name := by
  show name ∈ all.map Region.name ↔ _
  rw [List.mem_map]
  exact ⟨fun ⟨r, _, hr⟩ => ⟨r, hr⟩, fun ⟨r, hr⟩ => ⟨r, r.mem_all, hr⟩⟩

theorem notMem_names_iff {name : String} :
    name ∉ ["left_only", "right_only", "both"] ↔ ∀ r : Region, r.name ≠ name := by
  rw [mem_names_iff, not_exists]

theorem ofName_of_forall_ne {name : String} (h : ∀ r : Region, r.name ≠ name) :
    ofName name = .error ⟨name⟩ := by
  have hnone : all.find? (fun r => r.name == name) = none := by
    rw [List.find?_eq_none]
    intro r _ hr
    exact h r (beq_iff_eq.mp hr)
  unfold ofName
  rw [hnone]

end Region

namespace Shading

theorem ext_get {s t : Shading} (h : ∀ q, s.get q = t.get q) : s = t := by
  cases s
  cases t
  have hleft := h .leftOnly
  have hright := h .rightOnly
  have hboth := h .both
  simp_all [get]

theorem get_only (q r : Region) : (only r).get q = (r == q) := by
  by_cases h : q = r
  · subst h
    rw [only, get_set_self, beq_self_eq_true]
  · rw [only, get_set_of_ne _ _ h, get_cleared, beq_eq_false_iff_ne.mpr (Ne.symm h)]

theorem get_toggled (s : Shading) (q r : Region) :
    (s.toggled r).get q = (s.get q ^^ (r == q)) := by
  by_cases h : q = r
  · subst h
    rw [toggled, get_set_self, beq_self_eq_true, Bool.xor_true]
  · rw [toggled, get_set_of_ne _ _ h, beq_eq_false_iff_ne.mpr (Ne.symm h), Bool.xor_false]

namespace Edit

/-- The name that an edit gives, if it gives one. -/
def name? : Edit → Option String
  | .cleared => none
  | .only name => some name
  | .toggled name => some name

/-- The edit succeeds and sets all regions. -/
def resets : Edit → Bool
  | .cleared => true
  | .only name => Region.all.any (·.name == name)
  | .toggled _ => false

/-- The edit succeeds and reverses the region. -/
def toggles (q : Region) : Edit → Bool
  | .cleared => false
  | .only _ => false
  | .toggled name => q.name == name

/-- Whether an edit that sets all regions shades the region. -/
def shades (q : Region) : Edit → Bool
  | .cleared => false
  | .only name => q.name == name
  | .toggled _ => false

/-- The edit succeeds and sets all regions, or reverses this one. -/
def concerns (q : Region) (e : Edit) : Bool := e.resets || e.toggles q

/-- Whether the region is reversed an odd number of times. -/
def reverses (q : Region) (es : List Edit) : Bool := es.countP (toggles q) % 2 == 1

theorem reverses_cons (q : Region) (e : Edit) (es : List Edit) :
    reverses q (e :: es) = (e.toggles q ^^ reverses q es) := by
  unfold reverses
  rw [List.countP_cons]
  cases e.toggles q with
  | false => simp
  | true =>
      rcases Nat.mod_two_eq_zero_or_one (es.countP (toggles q)) with h | h <;>
        simp [Nat.add_mod, h]

theorem resets_only_name (r : Region) : (only r.name).resets = true := by cases r <;> rfl

theorem name_beq (q r : Region) : (q.name == r.name) = (r == q) := by
  rw [Bool.eq_iff_iff, beq_iff_eq, beq_iff_eq]
  exact ⟨fun h => (Region.name_injective h).symm, fun h => h ▸ rfl⟩

/-- An edit that gives a name no region has is neither a reset nor a toggle. -/
theorem resets_and_toggles_of_forall_ne {e : Edit} {name : String} (he : e.name? = some name)
    (h : ∀ r : Region, r.name ≠ name) (q : Region) :
    e.resets = false ∧ e.toggles q = false := by
  have hne : ∀ r : Region, (r.name == name) = false := fun r => beq_eq_false_iff_ne.mpr (h r)
  cases e with
  | cleared => cases he
  | only name' =>
      cases he
      exact ⟨List.any_eq_false.mpr fun r _ => by rw [hne r]; decide, rfl⟩
  | toggled name' =>
      cases he
      exact ⟨rfl, hne q⟩

end Edit

variable {s t : Shading} {e : Edit} {es : List Edit} {q : Region}

/-! ## One edit -/

theorem edited_of_forall_ne (s : Shading) {name : String} (he : e.name? = some name)
    (h : ∀ r : Region, r.name ≠ name) : s.edited e = .error ⟨name⟩ := by
  cases e with
  | cleared => cases he
  | only name' =>
      cases he
      simp only [edited, Region.ofName_of_forall_ne h]
      rfl
  | toggled name' =>
      cases he
      simp only [edited, Region.ofName_of_forall_ne h]
      rfl

theorem edited_of_exists (s : Shading) (h : ∀ name ∈ e.name?, ∃ r : Region, r.name = name) :
    s.edited e = .ok (s.after e) := by
  have hok : ∃ t, s.edited e = .ok t := by
    cases e with
    | cleared => exact ⟨_, rfl⟩
    | only name =>
        obtain ⟨r, rfl⟩ := h name rfl
        simp only [edited, Region.ofName_name]
        exact ⟨_, rfl⟩
    | toggled name =>
        obtain ⟨r, rfl⟩ := h name rfl
        simp only [edited, Region.ofName_name]
        exact ⟨_, rfl⟩
  obtain ⟨t, ht⟩ := hok
  rw [after, ht]

theorem after_of_forall_ne (s : Shading) {name : String} (he : e.name? = some name)
    (h : ∀ r : Region, r.name ≠ name) : s.after e = s := by
  rw [after, s.edited_of_forall_ne he h]

theorem after_only_name (s : Shading) (r : Region) : s.after (.only r.name) = only r := by
  cases r <;> rfl

theorem after_toggled_name (s : Shading) (r : Region) :
    s.after (.toggled r.name) = s.toggled r := by
  cases r <;> rfl

/-- What an edit makes of a region. -/
theorem get_after (s : Shading) (e : Edit) (q : Region) :
    (s.after e).get q = if e.resets then e.shades q else (s.get q ^^ e.toggles q) := by
  by_cases hknown : ∀ name ∈ e.name?, ∃ r : Region, r.name = name
  · cases e with
    | cleared => exact get_cleared q
    | only name =>
        obtain ⟨r, rfl⟩ := hknown name rfl
        rw [after_only_name, get_only, if_pos (Edit.resets_only_name r)]
        exact (Edit.name_beq q r).symm
    | toggled name =>
        obtain ⟨r, rfl⟩ := hknown name rfl
        rw [after_toggled_name, get_toggled, ← Edit.name_beq q r]
        rfl
  · simp only [not_forall, not_exists] at hknown
    obtain ⟨name, he, hname⟩ := hknown
    obtain ⟨hresets, htoggles⟩ := Edit.resets_and_toggles_of_forall_ne he hname q
    rw [s.after_of_forall_ne he hname, hresets, htoggles]
    exact (Bool.xor_false _).symm

theorem get_after_of_not_resets (s : Shading) (he : e.resets = false) (q : Region) :
    (s.after e).get q = (s.get q ^^ e.toggles q) := by
  rw [get_after, he]
  rfl

/-! ## Runs -/

/-- The shading after a run of edits. -/
def afterAll (s : Shading) (es : List Edit) : Shading := es.foldl after s

@[simp] theorem afterAll_nil (s : Shading) : s.afterAll [] = s := rfl

@[simp] theorem afterAll_cons (s : Shading) (e : Edit) (es : List Edit) :
    s.afterAll (e :: es) = (s.after e).afterAll es := rfl

theorem afterAll_append (s : Shading) (es fs : List Edit) :
    s.afterAll (es ++ fs) = (s.afterAll es).afterAll fs := List.foldl_append

/-- Behind the last edit that sets all regions only the toggles of a region matter to it. -/
theorem get_afterAll_of_not_resets (s : Shading) (hes : ∀ e ∈ es, e.resets = false) (q : Region) :
    (s.afterAll es).get q = (s.get q ^^ Edit.reverses q es) := by
  induction es generalizing s with
  | nil => exact (Bool.xor_false _).symm
  | cons e es ih =>
      have he : e.resets = false := hes e (List.mem_cons_self ..)
      rw [afterAll_cons, ih _ fun f hf => hes f (List.mem_cons_of_mem e hf),
        get_after_of_not_resets _ he, Edit.reverses_cons, Bool.xor_assoc]

/-- A run is cut behind its last edit that sets all regions. -/
theorem Edit.exists_cut (es : List Edit) :
    ∃ before since, es = before ++ since ∧ (∀ e ∈ since, e.resets = false) ∧
      (before = [] ∨ ∃ earlier e, before = earlier ++ [e] ∧ e.resets = true) := by
  induction es using List.reverseRecOn with
  | nil => exact ⟨[], [], rfl, fun e he => absurd he List.not_mem_nil, .inl rfl⟩
  | append_singleton es e ih =>
      cases he : e.resets with
      | true =>
          exact ⟨es ++ [e], [], (List.append_nil _).symm,
            fun f hf => absurd hf List.not_mem_nil, .inr ⟨es, e, rfl, he⟩⟩
      | false =>
          obtain ⟨before, since, rfl, hsince, hbefore⟩ := ih
          refine ⟨before, since ++ [e], List.append_assoc .., ?_, hbefore⟩
          intro f hf
          rcases List.mem_append.mp hf with hf | hf
          · exact hsince f hf
          · rw [List.mem_singleton.mp hf, he]

/-- Runs agree on a region if one is the other without the edits that do not concern it. -/
theorem get_afterAll_filter_concerns (h : s.get q = t.get q) :
    (s.afterAll (es.filter (Edit.concerns q))).get q = (t.afterAll es).get q := by
  induction es generalizing s t with
  | nil => exact h
  | cons e es ih =>
      by_cases he : e.concerns q = true
      · rw [List.filter_cons_of_pos he, afterAll_cons, afterAll_cons]
        exact ih (by rw [get_after, get_after, h])
      · rw [List.filter_cons_of_neg he, afterAll_cons]
        obtain ⟨hresets, htoggles⟩ := Bool.or_eq_false_iff.mp (Bool.eq_false_iff.mpr he)
        exact ih (by rw [get_after_of_not_resets _ hresets, htoggles, Bool.xor_false, h])

/-! ## Toggles alone -/

theorem Edit.reverses_map_toggled (q : Region) (names : List String) :
    reverses q (names.map .toggled) = (names.count q.name % 2 == 1) := by
  have hcount : (names.map Edit.toggled).countP (toggles q) = names.count q.name := by
    rw [List.countP_map]
    exact List.countP_congr fun name _ => by rw [Function.comp, toggles, BEq.comm]
  rw [reverses, hcount]

theorem get_afterAll_toggled (s : Shading) (names : List String) (q : Region) :
    (s.afterAll (names.map .toggled)).get q = (s.get q ^^ (names.count q.name % 2 == 1)) := by
  have hresets : ∀ e ∈ names.map Edit.toggled, e.resets = false := by
    intro e he
    obtain ⟨name, _, rfl⟩ := List.mem_map.mp he
    rfl
  rw [s.get_afterAll_of_not_resets hresets, Edit.reverses_map_toggled]

/-- Toggles can be replaced by others that name every region equally often, up to pairs. -/
theorem afterAll_toggled_congr (s : Shading) {names names' : List String}
    (h : ∀ q : Region, names.count q.name % 2 = names'.count q.name % 2) :
    s.afterAll (names.map .toggled) = s.afterAll (names'.map .toggled) := by
  refine ext_get fun q => ?_
  rw [get_afterAll_toggled, get_afterAll_toggled, h q]

theorem afterAll_toggled_of_perm (s : Shading) {names names' : List String}
    (h : names.Perm names') :
    s.afterAll (names.map .toggled) = s.afterAll (names'.map .toggled) :=
  s.afterAll_toggled_congr fun q => by rw [h.count_eq]

theorem afterAll_toggled_twice (s : Shading) (name : String) (names names' : List String) :
    s.afterAll ((name :: names ++ name :: names').map .toggled) =
      s.afterAll ((names ++ names').map .toggled) := by
  refine s.afterAll_toggled_congr fun q => ?_
  rw [List.cons_append, List.count_cons, List.count_append, List.count_append, List.count_cons]
  omega

/-! ## What a run leaves -/

/-- What a run of edits makes of a shading. -/
structure Tracked (s : Shading) (es : List Edit) : Prop where
  /-- An edit on the way succeeds if it gives the name of a region, or none. -/
  succeeds : ∀ before e since, es = before ++ e :: since →
    (∀ name ∈ e.name?, name ∈ ["left_only", "right_only", "both"]) →
      (s.afterAll before).edited e = .ok (s.afterAll (before ++ [e]))
  /-- An edit on the way that gives another name is refused, and changes nothing. -/
  refused : ∀ before e since, es = before ++ e :: since →
    ∀ name, e.name? = some name → name ∉ ["left_only", "right_only", "both"] →
      (s.afterAll before).edited e = .error ⟨name⟩ ∧
        s.afterAll (before ++ [e]) = s.afterAll before
  /-- A region is what it was behind the last edit that sets all regions, or at first where there
  is none, reversed once for every toggle that follows. -/
  value : ∃ before since, es = before ++ since ∧ (∀ e ∈ since, e.resets = false) ∧
    (before = [] ∨ ∃ earlier e, before = earlier ++ [e] ∧ e.resets = true) ∧
    ∀ q, (s.afterAll es).get q = ((s.afterAll before).get q ^^ Edit.reverses q since)
  /-- Toggles that follow the run may follow it in any order. -/
  commute : ∀ names names' : List String, names.Perm names' →
    s.afterAll (es ++ names.map .toggled) = s.afterAll (es ++ names'.map .toggled)
  /-- Two toggles of one name cancel, whatever toggles stand between them. -/
  cancel : ∀ (name : String) (names names' : List String),
    s.afterAll (es ++ (name :: names ++ name :: names').map .toggled) =
      s.afterAll (es ++ (names ++ names').map .toggled)
  /-- The toggle of a region keeps the other regions. -/
  keeps : ∀ q r : Region, q ≠ r →
    (s.afterAll (es ++ [.toggled r.name])).get q = (s.afterAll es).get q
  /-- A region is the same without the toggles of other regions and the edits that fail. -/
  independent : ∀ q, (s.afterAll (es.filter (Edit.concerns q))).get q =
    (s.afterAll es).get q

theorem afterAll_tracked (s : Shading) (es : List Edit) : s.Tracked es where
  succeeds before e since _ hname := by
    rw [afterAll_append]
    exact edited_of_exists _ fun name he => Region.mem_names_iff.mp (hname name he)
  refused before e since _ name he hname := by
    rw [afterAll_append]
    have hne := Region.notMem_names_iff.mp hname
    exact ⟨edited_of_forall_ne _ he hne, after_of_forall_ne _ he hne⟩
  value := by
    obtain ⟨before, since, rfl, hsince, hbefore⟩ := Edit.exists_cut es
    refine ⟨before, since, rfl, hsince, hbefore, fun q => ?_⟩
    rw [afterAll_append, get_afterAll_of_not_resets _ hsince]
  commute names names' h := by
    rw [afterAll_append, afterAll_append, afterAll_toggled_of_perm _ h]
  cancel name names names' := by
    rw [afterAll_append, afterAll_append, afterAll_toggled_twice]
  keeps q r h := by
    rw [afterAll_append, afterAll_cons, afterAll_nil, after_toggled_name, get_toggled,
      beq_eq_false_iff_ne.mpr (Ne.symm h), Bool.xor_false]
  independent q := get_afterAll_filter_concerns rfl

/-- A name that no region has is refused in the middle of a run. -/
theorem afterAll_tracked_refused :
    (cleared.afterAll [.toggled "left_only", .only "both"]).edited (.toggled "outside") =
        .error ⟨"outside"⟩ ∧
      cleared.afterAll [.toggled "left_only", .only "both", .toggled "outside"] = only .both := by
  have htracked := cleared.afterAll_tracked
    [.toggled "left_only", .only "both", .toggled "outside", .toggled "both"]
  obtain ⟨hrefused, hkept⟩ := htracked.refused [.toggled "left_only", .only "both"]
    (.toggled "outside") [.toggled "both"] rfl "outside" rfl (by decide)
  exact ⟨hrefused, hkept⟩

example :
    cleared.afterAll [.toggled "left_only", .only "both", .toggled "right_only",
      .toggled "outside", .toggled "both", .toggled "right_only"] = cleared := by
  decide

end Shading

end Sentential
