import Sentential.Compilation
/-!
# The waiting stack

What the three ways of releasing connectives do to the waiting stack.  Each of them takes a run of
connectives off the top: `release` those to which the incoming connective yields, `closeGroup`
those above the topmost opening parenthesis, `releaseAll` the whole stack if no parenthesis is in
it.  The connectives leave in the order in which they lie, the top first.
-/

namespace Sentential

namespace Compiler

/-- Connectives as they wait on the stack. -/
def pending (cs : List Connective) : List Waiting := cs.map .connective

/-- The instructions that a run of connectives turns into when it is released. -/
def released (cs : List Connective) : Program := cs.map .apply

@[simp] theorem pending_nil : pending [] = [] := rfl

@[simp] theorem pending_cons (c : Connective) (cs : List Connective) :
    pending (c :: cs) = .connective c :: pending cs := rfl

@[simp] theorem pending_append (cs ds : List Connective) :
    pending (cs ++ ds) = pending cs ++ pending ds := by
  simp [pending]

@[simp] theorem released_nil : released [] = [] := rfl

@[simp] theorem released_cons (c : Connective) (cs : List Connective) :
    released (c :: cs) = .apply c :: released cs := rfl

@[simp] theorem released_append (cs ds : List Connective) :
    released (cs ++ ds) = released cs ++ released ds := by
  simp [released]

theorem opening_notMem_pending (cs : List Connective) : .opening ∉ pending cs := by
  simp [pending]

@[simp] theorem count_opening_pending (cs : List Connective) :
    (pending cs).count .opening = 0 := by
  exact List.count_eq_zero.2 (opening_notMem_pending cs)

/-! ## Releasing for an incoming connective -/

theorem release_connective_of_yields {c d : Connective} (h : c.yieldsTo d = true)
    (rest : List Waiting) :
    release c (.connective d :: rest) =
      (.apply d :: (release c rest).1, (release c rest).2) := by
  rw [release, if_pos h]

theorem release_connective_of_not_yields {c d : Connective} (h : c.yieldsTo d = false)
    (rest : List Waiting) :
    release c (.connective d :: rest) = ([], .connective d :: rest) := by
  rw [release, if_neg (by simp [h])]

/-- Negation releases nothing. -/
@[simp] theorem release_not (waiting : List Waiting) : release .not waiting = ([], waiting) := by
  match waiting with
  | [] => rfl
  | .opening :: _ => rfl
  | .connective d :: rest =>
      apply release_connective_of_not_yields
      rcases d with _ | (_ | _ | _ | _) <;> rfl

/-- A run to which the incoming connective yields is released whole, and no more if it stops at
what lies below. -/
theorem release_pending_append {c : Connective} {cs : List Connective} {waiting : List Waiting}
    (hcs : ∀ d ∈ cs, c.yieldsTo d = true) (hstop : release c waiting = ([], waiting)) :
    release c (pending cs ++ waiting) = (released cs, waiting) := by
  induction cs with
  | nil => exact hstop
  | cons d cs ih =>
      have hd : c.yieldsTo d = true := hcs d (by simp)
      have hrest := ih (fun e he => hcs e (by simp [he]))
      rw [pending_cons, List.cons_append, release_connective_of_yields hd, hrest]
      rfl

/-- What `release` takes is a run of connectives on top of what it keeps. -/
theorem exists_release_eq (c : Connective) (waiting : List Waiting) :
    ∃ cs kept, waiting = pending cs ++ kept ∧ release c waiting = (released cs, kept) := by
  induction waiting with
  | nil => exact ⟨[], [], rfl, rfl⟩
  | cons w rest ih =>
      cases w with
      | opening => exact ⟨[], .opening :: rest, rfl, rfl⟩
      | connective d =>
          by_cases hd : c.yieldsTo d = true
          · obtain ⟨cs, kept, hrest, heq⟩ := ih
            refine ⟨d :: cs, kept, ?_, ?_⟩
            · rw [hrest]; rfl
            · rw [release_connective_of_yields hd, heq]; rfl
          · refine ⟨[], .connective d :: rest, rfl, ?_⟩
            exact release_connective_of_not_yields (by simpa using hd) rest

/-! ## Closing a group -/

@[simp] theorem closeGroup_pending_append (cs : List Connective) (rest : List Waiting) :
    closeGroup (pending cs ++ .opening :: rest) = some (released cs, rest) := by
  induction cs with
  | nil => rfl
  | cons c cs ih =>
      rw [pending_cons, List.cons_append, closeGroup, ih]
      rfl

@[simp] theorem closeGroup_pending (cs : List Connective) : closeGroup (pending cs) = none := by
  induction cs with
  | nil => rfl
  | cons c cs ih =>
      rw [pending_cons, closeGroup, ih]
      rfl

/-! ## Releasing the whole stack -/

@[simp] theorem releaseAll_pending (cs : List Connective) :
    releaseAll (pending cs) = some (released cs) := by
  induction cs with
  | nil => rfl
  | cons c cs ih =>
      rw [pending_cons, releaseAll, ih]
      rfl

@[simp] theorem releaseAll_pending_append_opening (cs : List Connective)
    (rest : List Waiting) : releaseAll (pending cs ++ .opening :: rest) = none := by
  induction cs with
  | nil => rfl
  | cons c cs ih =>
      rw [pending_cons, List.cons_append, releaseAll, ih]
      rfl

/-- A waiting stack either has no opening parenthesis or is a run of connectives on top of one. -/
theorem pending_or_opening (waiting : List Waiting) :
    (∃ cs, waiting = pending cs) ∨ ∃ cs rest, waiting = pending cs ++ .opening :: rest := by
  induction waiting with
  | nil => exact .inl ⟨[], rfl⟩
  | cons w rest ih =>
      cases w with
      | opening => exact .inr ⟨[], rest, rfl⟩
      | connective c =>
          rcases ih with ⟨cs, rfl⟩ | ⟨cs, below, rfl⟩
          · exact .inl ⟨c :: cs, rfl⟩
          · exact .inr ⟨c :: cs, below, rfl⟩

end Compiler

end Sentential
