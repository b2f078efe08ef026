import Sentential.Proofs.Text.Substitution
import Mathlib.Data.List.Chain
/-!
# Cutting a text

A cut between two characters that do not belong together is crossed by no occurrence of a spelling,
and neither side is a neighbour that would change a word boundary on the other.  So the two parts of
a text are rewritten each on its own, by one rule or by several, one after the other.
-/

namespace Sentential.Text

/-- The characters at a cut do not belong together. -/
def Apart (joined : Char → Char → Prop) (s t : List Char) : Prop :=
  ∀ d ∈ s.getLast?, ∀ e ∈ t.head?, ¬ joined d e

section

variable {joined : Char → Char → Prop} {s s' t t' : List Char}

theorem apart_nil_left (t : List Char) : Apart joined [] t := by
  simp [Apart]

theorem apart_append_left (h : s' ≠ []) : Apart joined (s ++ s') t ↔ Apart joined s' t := by
  rw [Apart, Apart, List.getLast?_append_of_ne_nil s h]

theorem apart_append_right (h : t ≠ []) : Apart joined s (t ++ t') ↔ Apart joined s t := by
  rw [Apart, Apart, List.head?_append_of_ne_nil t h]

theorem Apart.of_append_left (h : Apart joined (s ++ s') t) : Apart joined s' t := by
  cases s' with
  | nil => exact apart_nil_left t
  | cons c s' => exact (apart_append_left (by simp)).1 h

end

theorem isBoundary_of_not_word_right {before after : Option Char}
    (h : after.any isWord = false) : isBoundary before after = isBoundary before none := by
  rw [isBoundary, isBoundary, h]
  rfl

theorem isBoundary_of_not_word_left {before after : Option Char}
    (h : before.any isWord = false) : isBoundary before after = isBoundary none after := by
  rw [isBoundary, isBoundary, h]
  rfl

namespace Rule

/-- An occurrence consists of characters that belong together, a character that does not belong to
it is outside its word, and what takes its place belongs to no more than it did. -/
structure Within (r : Rule) (joined : Char → Char → Prop) : Prop where
  chain : ∀ u, r.Reads u → u.IsChain joined
  outside_left : r.wholeWord = true → ∀ u, r.Reads u → ∀ e ∈ u.head?, ∀ d, ¬ joined d e →
    isWord d = false
  outside_right : r.wholeWord = true → ∀ u, r.Reads u → ∀ d ∈ u.getLast?, ∀ e, ¬ joined d e →
    isWord e = false
  written_ne_nil : ∀ u, r.Reads u → r.written u ≠ []
  apart_left : ∀ u, r.Reads u → ∀ s, Apart joined s u → Apart joined s (r.written u)
  apart_right : ∀ u, r.Reads u → ∀ t, Apart joined u t → Apart joined (r.written u) t

variable {r : Rule} {joined : Char → Char → Prop} {before : Option Char} {s s' t t' u : List Char}

/-- What comes after a cut does not matter to an occurrence before it. -/
theorem Within.occurs_append_iff (hr : r.Within joined) (hcut : Apart joined (u ++ s) t) :
    r.Occurs before u (s ++ t) ↔ r.Occurs before u s := by
  have hstop : u ≠ [] → r.Reads u → r.wholeWord = true →
      isBoundary u.getLast? (s ++ t).head? = isBoundary u.getLast? s.head? := by
    intro hne hreads hword
    cases s with
    | cons c s => rfl
    | nil =>
        have hlast := List.getLast?_eq_some_getLast hne
        rw [List.append_nil] at hcut
        apply isBoundary_of_not_word_right
        rw [List.nil_append, Option.any_eq_false]
        intro e he
        have hword := hr.outside_right hword u hreads _ hlast e (hcut _ hlast e he)
        simp [hword]
  constructor
  · intro h
    exact h.of_boundaries (fun _ => rfl) (hstop h.ne_nil h.reads)
  · intro h
    exact h.of_boundaries (fun _ => rfl) fun hword => (hstop h.ne_nil h.reads hword).symm

theorem Within.occursAt_append (hr : r.Within joined) (hne : s ≠ [])
    (hcut : Apart joined s t) : r.occursAt before (s ++ t) = r.occursAt before s := by
  rw [Bool.eq_iff_iff, occursAt_iff, occursAt_iff]
  constructor
  · rintro ⟨u, v, heq, h⟩
    rcases List.append_eq_append_iff.1 heq with ⟨w, rfl, rfl⟩ | ⟨w, rfl, rfl⟩
    · -- The occurrence would reach across the cut unless nothing of it lies beyond.
      cases w with
      | nil =>
          refine ⟨s, [], by simp, ?_⟩
          rw [List.append_nil] at h
          exact (hr.occurs_append_iff (s := []) (by simpa using hcut)).1 h
      | cons e w =>
          have hchain := List.isChain_append.1 (hr.chain _ h.reads)
          have hlast := List.getLast?_eq_some_getLast hne
          exact absurd (hchain.2.2 _ hlast e rfl) (hcut _ hlast e rfl)
    · exact ⟨u, w, rfl, (hr.occurs_append_iff hcut).1 h⟩
  · rintro ⟨u, w, rfl, h⟩
    exact ⟨u, w ++ t, by simp, (hr.occurs_append_iff hcut).2 h⟩

/-- What stands before a cut does not matter to an occurrence after it. -/
theorem Within.occurs_before_iff (hr : r.Within joined) {d : Char}
    (hcut : Apart joined [d] u) : r.Occurs (some d) u t ↔ r.Occurs none u t := by
  have hstart : u ≠ [] → r.Reads u → r.wholeWord = true →
      isBoundary (some d) u.head? = isBoundary none u.head? := by
    intro hne hreads hword
    have hfirst := List.head?_eq_some_head hne
    apply isBoundary_of_not_word_left
    exact hr.outside_left hword u hreads _ hfirst d (hcut d rfl _ hfirst)
  constructor
  · intro h
    exact h.of_boundaries (hstart h.ne_nil h.reads) fun _ => rfl
  · intro h
    exact h.of_boundaries (fun hword => (hstart h.ne_nil h.reads hword).symm) fun _ => rfl

theorem Within.occursAt_before (hr : r.Within joined) {d : Char} (hcut : Apart joined [d] t) :
    r.occursAt (some d) t = r.occursAt none t := by
  have hoccurs : ∀ u v, t = u ++ v → (r.Occurs (some d) u v ↔ r.Occurs none u v) := by
    rintro u v rfl
    by_cases hne : u = []
    · exact ⟨fun h => absurd hne h.ne_nil, fun h => absurd hne h.ne_nil⟩
    · exact hr.occurs_before_iff ((apart_append_right hne).1 hcut)
  rw [Bool.eq_iff_iff, occursAt_iff, occursAt_iff]
  constructor
  · rintro ⟨u, v, heq, h⟩
    exact ⟨u, v, heq, (hoccurs u v heq).1 h⟩
  · rintro ⟨u, v, heq, h⟩
    exact ⟨u, v, heq, (hoccurs u v heq).2 h⟩

theorem Rewrites.after (hr : r.Within joined) {d : Char} (h : r.Rewrites none t t')
    (hcut : Apart joined [d] t) : r.Rewrites (some d) t t' := by
  cases h with
  | nil => exact .nil _
  | replace hoccurs htail =>
      exact .replace ((hr.occurs_before_iff ((apart_append_right hoccurs.ne_nil).1 hcut)).2 hoccurs)
        htail
  | keep hfree htail => exact .keep ((hr.occursAt_before hcut).trans hfree) htail

theorem Rewrites.append (hr : r.Within joined) (h : r.Rewrites before s s')
    (hcut : Apart joined s t) (htail : r.Rewrites (s.getLast?.or before) t t') :
    r.Rewrites before (s ++ t) (s' ++ t') := by
  induction h with
  | nil before => exact htail
  | @replace before u v v' hoccurs _ ih =>
      rw [List.append_assoc, List.append_assoc]
      refine .replace ((hr.occurs_append_iff hcut).2 hoccurs) (ih hcut.of_append_left ?_)
      have hlast := List.getLast?_eq_some_getLast hoccurs.ne_nil
      rw [List.getLast?_append, hlast] at htail
      rw [hlast]
      simpa using htail
  | @keep before c v v' hfree _ ih =>
      rw [List.cons_append, List.cons_append]
      have hfree' := (hr.occursAt_append (List.cons_ne_nil c v) hcut).trans hfree
      refine .keep hfree' (ih (Apart.of_append_left (s := [c]) hcut) ?_)
      rw [List.getLast?_cons] at htail
      rw [getLast?_or_some, List.getLast?_cons]
      exact htail

theorem Rewrites.ne_nil (hr : r.Within joined) (h : r.Rewrites before s s') (hne : s ≠ []) :
    s' ≠ [] := by
  cases h with
  | nil => exact absurd rfl hne
  | @replace _ u _ _ hoccurs _ =>
      exact List.append_ne_nil_of_left_ne_nil (hr.written_ne_nil u hoccurs.reads) _
  | keep _ _ => exact List.cons_ne_nil _ _

theorem Rewrites.apart_right (hr : r.Within joined) (h : r.Rewrites before s s')
    (hcut : Apart joined s t) : Apart joined s' t := by
  induction h with
  | nil => exact hcut
  | @replace before u v v' hoccurs htail ih =>
      by_cases hv : v = []
      · subst hv
        obtain rfl := htail.eq_nil
        rw [List.append_nil] at hcut ⊢
        exact hr.apart_right u hoccurs.reads t hcut
      · rw [apart_append_left hv] at hcut
        exact (apart_append_left (htail.ne_nil hr hv)).2 (ih hcut)
  | @keep before c v v' hfree htail ih =>
      by_cases hv : v = []
      · subst hv
        obtain rfl := htail.eq_nil
        exact hcut
      · have hcut := (apart_append_left (s := [c]) hv).1 hcut
        exact (apart_append_left (s := [c]) (htail.ne_nil hr hv)).2 (ih hcut)

theorem Rewrites.apart_left (hr : r.Within joined) (h : r.Rewrites before t t')
    (hcut : Apart joined s t) : Apart joined s t' := by
  cases h with
  | nil => exact hcut
  | @replace _ u v v' hoccurs _ =>
      have hcut := (apart_append_right hoccurs.ne_nil).1 hcut
      exact (apart_append_right (hr.written_ne_nil u hoccurs.reads)).2
        (hr.apart_left u hoccurs.reads s hcut)
  | keep _ _ => exact hcut

/-- The two parts of a text are rewritten each on its own. -/
theorem Within.apply_append (hr : r.Within joined) (hcut : Apart joined s t) :
    r.apply (s ++ t) = r.apply s ++ r.apply t := by
  have hs := r.rewrites_apply s
  have ht : r.Rewrites (s.getLast?.or none) t (r.apply t) := by
    cases hlast : s.getLast? with
    | none => exact r.rewrites_apply t
    | some d =>
        refine (r.rewrites_apply t).after hr fun c hc e he => ?_
        cases hc
        exact hcut d hlast e he
  exact (hs.append hr hcut ht).eq_applyFrom.symm

/-- The cut is still one afterwards. -/
theorem Within.apart_apply (hr : r.Within joined) (hcut : Apart joined s t) :
    Apart joined (r.apply s) (r.apply t) :=
  (r.rewrites_apply t).apart_left hr ((r.rewrites_apply s).apart_right hr hcut)

end Rule

/-- Rules that are applied one after the other rewrite the two parts each on its own. -/
theorem substituteAll_append {joined : Char → Char → Prop} {rules : List Rule}
    (hrules : ∀ r ∈ rules, r.Within joined) {s t : List Char} (hcut : Apart joined s t) :
    substituteAll rules (s ++ t) = substituteAll rules s ++ substituteAll rules t := by
  induction rules generalizing s t with
  | nil => rfl
  | cons r rules ih =>
      have hr := hrules r (by simp)
      have hrest : ∀ q ∈ rules, q.Within joined := fun q hq => hrules q (by simp [hq])
      show substituteAll rules (r.apply (s ++ t)) =
        substituteAll rules (r.apply s) ++ substituteAll rules (r.apply t)
      rw [hr.apply_append hcut, ih hrest (hr.apart_apply hcut)]

end Sentential.Text
