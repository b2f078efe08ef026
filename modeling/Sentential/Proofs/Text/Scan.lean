import Sentential.Proofs.Text.Substitution
/-!
# Several passes as one scan

Passes over a whole text, one after the other, do what one scan does that takes the first rule that
fits at each place, if no spelling can begin inside a spelling of a later rule and no pass writes a
sign of another one.  So a text can be rewritten from its left end: what the first rule to fit
finds there is replaced at once, and a character with which no spelling begins is kept.
-/

namespace Sentential.Text

namespace Rule

variable {r : Rule} {before before' : Option Char} {s s' : List Char}

/-- A rule that asks for no word boundary does not look at what stands before. -/
theorem Exact.rewrites_of_rewrites (hr : r.Exact) (h : r.Rewrites before s s') :
    r.Rewrites before' s s' := by
  have hnot : r.wholeWord ≠ true := by simp [hr.wholeWord]
  cases h with
  | nil => exact .nil before'
  | replace hoccurs htail =>
      refine .replace (hoccurs.of_boundaries ?_ ?_) htail
      · exact fun hword => absurd hword hnot
      · exact fun hword => absurd hword hnot
  | @keep _ c t t' hfree htail =>
      rw [← Bool.not_eq_true, hr.occursAt_iff_isPrefix] at hfree
      refine .keep ?_ htail
      rwa [← Bool.not_eq_true, hr.occursAt_iff_isPrefix]

theorem Exact.applyFrom_eq_apply (hr : r.Exact) (before : Option Char) (s : List Char) :
    r.applyFrom 0 before s = r.apply s :=
  (hr.rewrites_of_rewrites (r.rewrites_apply s)).eq_applyFrom.symm

/-- A spelling at the left end is replaced, and then the rest is rewritten. -/
theorem Exact.apply_spelling_append (hr : r.Exact) (s : List Char) :
    r.apply (r.spelling ++ s) = r.written r.spelling ++ r.apply s := by
  have hoccurs : r.Occurs none r.spelling s := by
    refine ⟨hr.spelling_ne_nil, hr.reads_iff.2 rfl, ?_, ?_⟩
    all_goals
      intro hword
      rw [hr.wholeWord] at hword
      cases hword
  rw [apply, applyFrom_of_occurs hoccurs, hr.applyFrom_eq_apply]

/-- A character with which the spelling does not begin is kept. -/
theorem Exact.apply_cons (hr : r.Exact) {c : Char} (h : ¬ r.spelling <+: c :: s) :
    r.apply (c :: s) = c :: r.apply s := by
  have hfree : r.occursAt none (c :: s) = false := by
    rwa [← Bool.not_eq_true, hr.occursAt_iff_isPrefix]
  rw [apply, applyFrom_of_not_occursAt hfree, hr.applyFrom_eq_apply]

end Rule

/-- Rules of which none gets in the way of another: each writes one sign that is in no spelling, and
no spelling begins where a later one goes on. -/
structure Orderly (rules : List Rule) : Prop where
  exact : ∀ r ∈ rules, r.Exact
  sign : ∀ r ∈ rules, ∃ g, r.replacement = .literal [g] ∧ ∀ q ∈ rules, g ∉ q.spelling
  ordered : rules.Pairwise fun r q => ∀ c ∈ r.spelling.head?, c ∉ q.spelling.tail

variable {rules rules' before after : List Rule} {q : Rule} {c : Char} {s u : List Char}

theorem Orderly.sublist (h : Orderly rules) (hsub : rules'.Sublist rules) : Orderly rules' where
  exact := fun r hr => h.exact r (hsub.subset hr)
  sign := by
    intro r hr
    obtain ⟨g, hg, hsign⟩ := h.sign r (hsub.subset hr)
    exact ⟨g, hg, fun q hq => hsign q (hsub.subset hq)⟩
  ordered := h.ordered.sublist hsub

/-- A character with which no spelling begins is kept by all passes. -/
theorem Orderly.substituteAll_cons (h : Orderly rules)
    (hfree : ∀ r ∈ rules, ¬ r.spelling <+: c :: s) :
    substituteAll rules (c :: s) = c :: substituteAll rules s := by
  induction rules generalizing s with
  | nil => rfl
  | cons r rules ih =>
      have hr := h.exact r (by simp)
      obtain ⟨g, hg, hsign⟩ := h.sign r (by simp)
      have hkeep := hr.apply_cons (hfree r (by simp))
      show substituteAll rules (r.apply (c :: s)) = c :: substituteAll rules (r.apply s)
      rw [hkeep]
      apply ih (h.sublist (List.sublist_cons_self r rules))
      intro q hq hpre
      -- the sign that the pass writes is in no spelling, so the spelling was there before
      rw [← hkeep] at hpre
      have hold := (r.rewrites_apply (c :: s)).prefix_of_notMem hg (hsign q (by simp [hq])) hpre
      exact hfree q (by simp [hq]) hold

theorem not_prefix_of_head?_ne {p : List Char} (hp : p ≠ []) (h : ∀ d ∈ p.head?, d ≠ c)
    (s : List Char) : ¬ p <+: c :: s := by
  cases p with
  | nil => exact absurd rfl hp
  | cons d p =>
      rw [List.cons_prefix_cons]
      exact fun hpre => h d rfl hpre.1

theorem Orderly.substituteAll_append (h : Orderly rules)
    (hu : ∀ r ∈ rules, ∀ c ∈ r.spelling.head?, c ∉ u) (s : List Char) :
    substituteAll rules (u ++ s) = u ++ substituteAll rules s := by
  induction u with
  | nil => rfl
  | cons c u ih =>
      rw [List.cons_append, h.substituteAll_cons, ih, List.cons_append]
      · intro r hr d hd hmem
        exact hu r hr d hd (by simp [hmem])
      · intro r hr
        refine not_prefix_of_head?_ne (h.exact r hr).spelling_ne_nil ?_ (u ++ s)
        rintro d hd rfl
        exact hu r hr d hd (by simp)

/-- At the left end the first rule that fits takes what it finds, before all others. -/
theorem Orderly.substituteAll_spelling_append (h : Orderly (before ++ q :: after))
    (hfirst : ∀ r ∈ before, ¬ r.spelling <+: q.spelling ++ s) :
    substituteAll (before ++ q :: after) (q.spelling ++ s) =
      q.written q.spelling ++ substituteAll (before ++ q :: after) s := by
  have hq := h.exact q (by simp)
  obtain ⟨g, hg, hsign⟩ := h.sign q (by simp)
  obtain ⟨p, ps, hspelling⟩ := List.exists_cons_of_ne_nil hq.spelling_ne_nil
  have hbefore : substituteAll before (q.spelling ++ s) = q.spelling ++ substituteAll before s := by
    have hleft := h.sublist (List.sublist_append_left before (q :: after))
    have htail : ∀ r ∈ before, ∀ c ∈ r.spelling.head?, c ∉ ps := by
      intro r hr c hc
      have hordered := (List.pairwise_append.1 h.ordered).2.2 r hr q (by simp)
      rw [hspelling] at hordered
      exact hordered c hc
    rw [hspelling, List.cons_append] at hfirst ⊢
    rw [hleft.substituteAll_cons hfirst, hleft.substituteAll_append htail, List.cons_append]
  have hafter : ∀ t, substituteAll after ([g] ++ t) = [g] ++ substituteAll after t := by
    have hright := (List.sublist_cons_self q after).trans
      (List.sublist_append_right before (q :: after))
    refine (h.sublist hright).substituteAll_append fun r hr c hc hmem => ?_
    rw [List.mem_singleton] at hmem
    exact hsign r (by simp [hr]) (hmem ▸ List.mem_of_mem_head? hc)
  rw [substituteAll_append_rules, substituteAll_append_rules, hbefore]
  show substituteAll after (q.apply (q.spelling ++ substituteAll before s)) =
    q.written q.spelling ++ substituteAll after (q.apply (substituteAll before s))
  rw [hq.apply_spelling_append, Rule.written_of_literal hg, hafter]

end Sentential.Text
