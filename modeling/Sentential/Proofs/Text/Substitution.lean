import Sentential.Text.Substitution
import Mathlib.Data.List.Forall2
import Mathlib.Data.List.Infix
/-!
# What substituting a spelling does

Substituting goes through a text from left to right: at each place an occurrence is replaced as a
whole, or one character is kept.  Where a spelling is replaced by a sign that is not in it, nothing
is left of the spelling afterwards.  A word is replaced as a whole or not at all.
-/

namespace Sentential.Text

theorem beginsWith_iff {same : Char → Char → Bool} {ps s : List Char} :
    beginsWith same ps s = true ↔
      ∃ u t, s = u ++ t ∧ List.Forall₂ (fun p c => same p c = true) ps u := by
  induction ps generalizing s with
  | nil => simp [beginsWith]
  | cons p ps ih =>
      cases s with
      | nil => simp [beginsWith, List.forall₂_cons_left_iff]
      | cons c s =>
          simp only [beginsWith, Bool.and_eq_true, ih, List.forall₂_cons_left_iff]
          constructor
          · rintro ⟨hp, u, t, rfl, hu⟩
            exact ⟨c :: u, t, rfl, c, u, hp, hu, rfl⟩
          · rintro ⟨_, t, heq, d, u, hd, hu, rfl⟩
            obtain ⟨rfl, rfl⟩ := List.cons.inj heq
            exact ⟨hd, u, t, rfl, hu⟩

theorem getLast?_or_some (u : List Char) (c : Char) :
    u.getLast?.or (some c) = (c :: u).getLast? := by
  cases u with
  | nil => rfl
  | cons d u => simp [List.getLast?_cons]

namespace Rule

/-- Whether the rule reads a text as its spelling. -/
def Reads (r : Rule) (u : List Char) : Prop :=
  List.Forall₂ (fun p c => r.same p c = true) r.spelling u

/-- A text occurs between what stands before and what comes after it. -/
structure Occurs (r : Rule) (before : Option Char) (u t : List Char) : Prop where
  ne_nil : u ≠ []
  reads : r.Reads u
  start : r.wholeWord = true → isBoundary before u.head? = true
  stop : r.wholeWord = true → isBoundary u.getLast? t.head? = true

variable {r : Rule} {before : Option Char} {u t s : List Char}

/-- What a rule writes if its template stands for itself. -/
theorem written_of_literal (h : r.replacement = .literal s) (u : List Char) : r.written u = s := by
  rw [written, h, Template.fill_literal]

theorem Reads.length_eq (h : r.Reads u) : u.length = r.spelling.length :=
  (List.Forall₂.length_eq h).symm

theorem Reads.ne_nil (h : r.Reads u) (hspelling : r.spelling ≠ []) : u ≠ [] := by
  rintro rfl
  exact hspelling (List.length_eq_zero_iff.1 h.length_eq.symm)

theorem Reads.exists_same (h : r.Reads u) {c : Char} (hc : c ∈ u) :
    ∃ p ∈ r.spelling, r.same p c = true := by
  unfold Reads at h
  generalize r.spelling = ps at h
  induction h with
  | nil => cases hc
  | @cons p d ps u hp _ ih =>
      rcases List.mem_cons.1 hc with rfl | hc
      · exact ⟨p, by simp, hp⟩
      · obtain ⟨q, hq, hsame⟩ := ih hc
        exact ⟨q, by simp [hq], hsame⟩

/-- Only the word boundaries depend on what stands around an occurrence. -/
theorem Occurs.of_boundaries {before' : Option Char} {t' : List Char} (h : r.Occurs before u t)
    (hstart : r.wholeWord = true → isBoundary before u.head? = isBoundary before' u.head?)
    (hstop : r.wholeWord = true →
      isBoundary u.getLast? t.head? = isBoundary u.getLast? t'.head?) :
    r.Occurs before' u t' where
  ne_nil := h.ne_nil
  reads := h.reads
  start := fun hword => hstart hword ▸ h.start hword
  stop := fun hword => hstop hword ▸ h.stop hword

theorem occursAt_append_of_reads (hne : u ≠ []) (h : r.Reads u) :
    r.occursAt before (u ++ t) = true ↔
      (r.wholeWord = true → isBoundary before u.head? = true) ∧
        (r.wholeWord = true → isBoundary u.getLast? t.head? = true) := by
  have hlength := h.length_eq
  have hpos : 0 < u.length := List.length_pos_iff.2 hne
  have hbegins : beginsWith r.same r.spelling (u ++ t) = true := beginsWith_iff.2 ⟨u, t, rfl, h⟩
  have hspelling : r.spelling.isEmpty = false := by
    rw [List.isEmpty_eq_false_iff, ← List.length_pos_iff]
    omega
  have hlast : (u ++ t)[r.spelling.length - 1]? = u.getLast? := by
    rw [← hlength, List.getElem?_append_left (by omega), List.getLast?_eq_getElem?]
  have hnext : (u ++ t)[r.spelling.length]? = t.head? := by
    rw [← hlength, List.getElem?_append_right (by omega), Nat.sub_self, List.head?_eq_getElem?]
  have hfirst : (u ++ t).head? = u.head? := List.head?_append_of_ne_nil u hne
  unfold occursAt
  simp only [hbegins, hspelling, hlast, hnext, hfirst, Bool.not_false, Bool.true_and]
  cases r.wholeWord <;> simp

theorem occursAt_iff : r.occursAt before s = true ↔ ∃ u t, s = u ++ t ∧ r.Occurs before u t := by
  constructor
  · intro h
    have hparts := h
    simp only [occursAt, Bool.and_eq_true, Bool.not_eq_true', List.isEmpty_eq_false_iff] at hparts
    obtain ⟨⟨hspelling, hbegins⟩, _⟩ := hparts
    obtain ⟨u, t, rfl, hreads⟩ := beginsWith_iff.1 hbegins
    have hne : u ≠ [] := by
      rintro rfl
      exact hspelling (List.forall₂_nil_right_iff.1 hreads)
    obtain ⟨hstart, hstop⟩ := (occursAt_append_of_reads hne hreads).1 h
    exact ⟨u, t, rfl, hne, hreads, hstart, hstop⟩
  · rintro ⟨u, t, rfl, h⟩
    exact (occursAt_append_of_reads h.ne_nil h.reads).2 ⟨h.start, h.stop⟩

/-! ## One pass over a text -/

/-- What one pass makes of the rest of a text, where `before` is the character to the left. -/
inductive Rewrites (r : Rule) : Option Char → List Char → List Char → Prop
  | nil (before : Option Char) : Rewrites r before [] []
  | replace {before : Option Char} {u t t' : List Char} (h : r.Occurs before u t)
      (htail : Rewrites r u.getLast? t t') : Rewrites r before (u ++ t) (r.written u ++ t')
  | keep {before : Option Char} {c : Char} {t t' : List Char}
      (h : r.occursAt before (c :: t) = false) (htail : Rewrites r (some c) t t') :
      Rewrites r before (c :: t) (c :: t')

theorem applyFrom_length (r : Rule) (before : Option Char) (u t : List Char) :
    r.applyFrom u.length before (u ++ t) = r.applyFrom 0 (u.getLast?.or before) t := by
  induction u generalizing before with
  | nil => rfl
  | cons c u ih =>
      rw [List.length_cons, List.cons_append, applyFrom, ih, getLast?_or_some, List.getLast?_cons]
      rfl

theorem applyFrom_of_occurs (h : r.Occurs before u t) :
    r.applyFrom 0 before (u ++ t) = r.written u ++ r.applyFrom 0 u.getLast? t := by
  have hoccurs : r.occursAt before (u ++ t) = true := occursAt_iff.2 ⟨u, t, rfl, h⟩
  have hlength := h.reads.length_eq
  cases u with
  | nil => exact absurd rfl h.ne_nil
  | cons c u =>
      rw [List.cons_append] at hoccurs ⊢
      rw [applyFrom, if_pos hoccurs, ← hlength, ← List.cons_append, List.take_left,
        List.length_cons, Nat.add_sub_cancel, applyFrom_length, getLast?_or_some]

theorem applyFrom_of_not_occursAt {c : Char} (h : r.occursAt before (c :: t) = false) :
    r.applyFrom 0 before (c :: t) = c :: r.applyFrom 0 (some c) t := by
  rw [applyFrom, if_neg (by simp [h])]

theorem rewrites_applyFrom (r : Rule) (before : Option Char) (s : List Char) :
    r.Rewrites before s (r.applyFrom 0 before s) := by
  induction hn : s.length using Nat.strong_induction_on generalizing before s with
  | _ n ih =>
      subst hn
      cases s with
      | nil => exact .nil before
      | cons c s =>
          cases hoccurs : r.occursAt before (c :: s) with
          | true =>
              obtain ⟨u, t, heq, h⟩ := occursAt_iff.1 hoccurs
              have hlength : t.length < (c :: s).length := by
                have hpos := List.length_pos_iff.2 h.ne_nil
                rw [heq, List.length_append]
                omega
              rw [heq, applyFrom_of_occurs h]
              exact .replace h (ih t.length hlength _ t rfl)
          | false =>
              rw [applyFrom_of_not_occursAt hoccurs]
              exact .keep hoccurs (ih s.length (by simp) _ s rfl)

/-- A pass has one result. -/
theorem Rewrites.eq_applyFrom {s' : List Char} (h : r.Rewrites before s s') :
    s' = r.applyFrom 0 before s := by
  induction h with
  | nil => rfl
  | replace h _ ih => rw [applyFrom_of_occurs h, ← ih]
  | keep h _ ih => rw [applyFrom_of_not_occursAt h, ← ih]

theorem Rewrites.eq_nil {s' : List Char} (h : r.Rewrites before [] s') : s' = [] :=
  h.eq_applyFrom

theorem rewrites_apply (r : Rule) (s : List Char) : r.Rewrites none s (r.apply s) :=
  rewrites_applyFrom r none s

/-! ## Texts without an occurrence -/

theorem rewrites_self
    (h : ∀ u c t, s = u ++ c :: t → r.occursAt (u.getLast?.or before) (c :: t) = false) :
    r.Rewrites before s s := by
  induction s generalizing before with
  | nil => exact .nil before
  | cons c s ih =>
      refine .keep (h [] c s rfl) (ih ?_)
      rintro u d t rfl
      rw [getLast?_or_some]
      have hlater := h (c :: u) d t rfl
      rwa [List.getLast?_cons, Option.some_or, ← List.getLast?_cons] at hlater

theorem apply_of_not_occursAt
    (h : ∀ u c t, s = u ++ c :: t → r.occursAt u.getLast? (c :: t) = false) : r.apply s = s := by
  refine (rewrites_self ?_).eq_applyFrom.symm
  intro u c t heq
  rw [Option.or_none]
  exact h u c t heq

/-- A text is kept if the first character of the spelling does not occur in it. -/
theorem apply_of_forall_not_same (h : ∀ p ∈ r.spelling.head?, ∀ c ∈ s, r.same p c = false) :
    r.apply s = s := by
  apply apply_of_not_occursAt
  rintro u c t rfl
  rw [← Bool.not_eq_true, occursAt_iff]
  rintro ⟨v, w, heq, hoccurs⟩
  have hreads := hoccurs.reads
  unfold Reads at hreads
  cases v with
  | nil => exact hoccurs.ne_nil rfl
  | cons d v =>
      obtain ⟨rfl, rfl⟩ := List.cons.inj heq
      obtain ⟨p, ps, hp, _, hspelling⟩ := List.forall₂_cons_right_iff.1 hreads
      have hsame := h p (by rw [hspelling]; rfl) c (by simp)
      exact Bool.false_ne_true (hsame.symm.trans hp)

theorem Rewrites.eq_self {s' : List Char} (h : r.Rewrites before s s')
    (hreads : ∀ u, u <:+: s → r.Reads u → r.written u = u) : s' = s := by
  induction h with
  | nil => rfl
  | @replace before u t t' hoccurs _ ih =>
      rw [ih fun v hv => hreads v (hv.trans (List.suffix_append u t).isInfix),
        hreads u (List.prefix_append u t).isInfix hoccurs.reads]
  | @keep before c t t' _ _ ih =>
      rw [ih fun v hv => hreads v (hv.trans (List.suffix_cons c t).isInfix)]

/-- A text is kept if the spelling is read in it only where it is written as it should be. -/
theorem apply_of_written_eq (h : ∀ u, u <:+: s → r.Reads u → r.written u = u) : r.apply s = s :=
  (r.rewrites_apply s).eq_self h

/-! ## Spellings of one character -/

theorem reads_iff_of_spelling_singleton {p : Char} (hspelling : r.spelling = [p]) :
    r.Reads u ↔ ∃ c, u = [c] ∧ r.same p c = true := by
  rw [Reads, hspelling, List.forall₂_cons_left_iff]
  constructor
  · rintro ⟨c, rest, hsame, hrest, rfl⟩
    rw [List.forall₂_nil_left_iff] at hrest
    exact ⟨c, by rw [hrest], hsame⟩
  · rintro ⟨c, rfl, hsame⟩
    exact ⟨c, [], hsame, .nil, rfl⟩

theorem occursAt_of_spelling_singleton {p : Char} (hspelling : r.spelling = [p])
    (hword : r.wholeWord = false) (before : Option Char) (c : Char) (t : List Char) :
    r.occursAt before (c :: t) = r.same p c := by
  simp [occursAt, hspelling, hword, beginsWith]

/-- A spelling of one character is replaced character by character. -/
theorem apply_of_spelling_singleton {p : Char} (hspelling : r.spelling = [p])
    (hword : r.wholeWord = false) (s : List Char) :
    r.apply s = s.flatMap fun c => if r.same p c then r.written [c] else [c] := by
  unfold apply
  generalize (none : Option Char) = before
  induction s generalizing before with
  | nil => rfl
  | cons c s ih =>
      rw [applyFrom, occursAt_of_spelling_singleton hspelling hword, hspelling,
        List.length_singleton, List.take_one, List.head?_cons, ih (some c), List.flatMap_cons]
      cases r.same p c <;> rfl

/-! ## Spellings that are replaced wherever they stand -/

/-- The rule asks for the very characters of its spelling and for no word boundary. -/
structure Exact (r : Rule) : Prop where
  anyCase : r.anyCase = false
  wholeWord : r.wholeWord = false
  spelling_ne_nil : r.spelling ≠ []

theorem Exact.reads_iff (hr : r.Exact) : r.Reads u ↔ u = r.spelling := by
  have hsame : (fun p c => r.same p c = true) = Eq := by
    funext p c
    simp [same, hr.anyCase]
  rw [Reads, hsame, List.forall₂_eq_eq_eq]
  exact eq_comm

theorem Exact.occursAt_iff_isPrefix (hr : r.Exact) :
    r.occursAt before s = true ↔ r.spelling <+: s := by
  rw [occursAt_iff]
  constructor
  · rintro ⟨u, t, rfl, h⟩
    obtain rfl := hr.reads_iff.1 h.reads
    exact List.prefix_append _ t
  · rintro ⟨t, rfl⟩
    refine ⟨r.spelling, t, rfl, hr.spelling_ne_nil, hr.reads_iff.2 rfl, ?_, ?_⟩
    all_goals
      intro hword
      rw [hr.wholeWord] at hword
      cases hword

theorem Exact.apply_of_not_isInfix (hr : r.Exact) (h : ¬ r.spelling <:+: s) : r.apply s = s := by
  apply apply_of_not_occursAt
  rintro u c t rfl
  rw [← Bool.not_eq_true, hr.occursAt_iff_isPrefix]
  exact fun hpre => h (hpre.isInfix.trans (List.suffix_append u (c :: t)).isInfix)

variable {g : Char}

theorem eq_nil_of_prefix_cons (hu : g ∉ u) (hpre : u <+: g :: t) : u = [] := by
  cases u with
  | nil => rfl
  | cons c u => exact absurd (by simp [(List.cons_prefix_cons.1 hpre).1]) hu

theorem Rewrites.prefix_of_notMem {s' : List Char} (h : r.Rewrites before s s')
    (hg : r.replacement = .literal [g]) (hu : g ∉ u) (hpre : u <+: s') : u <+: s := by
  induction h generalizing u with
  | nil => exact hpre
  | replace _ _ _ =>
      rw [written_of_literal hg, List.singleton_append] at hpre
      rw [eq_nil_of_prefix_cons hu hpre]
      exact List.nil_prefix
  | keep _ _ ih =>
      cases u with
      | nil => exact List.nil_prefix
      | cons c u =>
          rw [List.cons_prefix_cons] at hpre ⊢
          exact ⟨hpre.1, ih (fun hmem => hu (by simp [hmem])) hpre.2⟩

/-- A pass makes no text that the new sign does not occur in. -/
theorem Rewrites.infix_of_notMem {s' : List Char} (h : r.Rewrites before s s')
    (hg : r.replacement = .literal [g]) (hu : g ∉ u) (hsub : u <:+: s') : u <:+: s := by
  induction h with
  | nil => exact hsub
  | @replace before v t t' hoccurs htail ih =>
      have hrewrites := Rewrites.replace hoccurs htail
      rw [written_of_literal hg, List.singleton_append] at hsub hrewrites
      rcases List.infix_cons_iff.1 hsub with hpre | hsub
      · exact (hrewrites.prefix_of_notMem hg hu hpre).isInfix
      · exact (ih hsub).trans (List.suffix_append v t).isInfix
  | @keep before c t t' hfree htail ih =>
      rcases List.infix_cons_iff.1 hsub with hpre | hsub
      · exact ((Rewrites.keep hfree htail).prefix_of_notMem hg hu hpre).isInfix
      · exact (ih hsub).trans (List.suffix_cons c t).isInfix

/-- Nothing is left of a spelling that does not contain the sign by which it is replaced. -/
theorem Exact.not_infix_of_rewrites {s' : List Char} (hr : r.Exact)
    (hg : r.replacement = .literal [g]) (hspelling : g ∉ r.spelling)
    (h : r.Rewrites before s s') : ¬ r.spelling <:+: s' := by
  induction h with
  | nil => exact fun hsub => hr.spelling_ne_nil (List.infix_nil.1 hsub)
  | @replace before v t t' hoccurs _ ih =>
      rw [written_of_literal hg, List.singleton_append, List.infix_cons_iff]
      rintro (hpre | hsub)
      · exact hr.spelling_ne_nil (eq_nil_of_prefix_cons hspelling hpre)
      · exact ih hsub
  | @keep before c t t' hfree htail ih =>
      rw [List.infix_cons_iff]
      rintro (hpre | hsub)
      · have hread := (Rewrites.keep hfree htail).prefix_of_notMem hg hspelling hpre
        rw [hr.occursAt_iff_isPrefix.2 hread] at hfree
        cases hfree
      · exact ih hsub

/-! ## Spellings that are whole words -/

theorem apply_of_reads_word (hne : s ≠ []) (hall : ∀ c ∈ s, isWord c = true) (h : r.Reads s) :
    r.apply s = r.written s := by
  have hoccurs : r.Occurs none s [] := by
    refine ⟨hne, h, fun _ => ?_, fun _ => ?_⟩
    · rw [List.head?_eq_some_head hne]
      simp [isBoundary, hall]
    · rw [List.getLast?_eq_some_getLast hne]
      simp [isBoundary, hall]
  have hrewrites := Rewrites.replace hoccurs (.nil _)
  rw [List.append_nil, List.append_nil] at hrewrites
  exact hrewrites.eq_applyFrom.symm

/-- A whole-word spelling is read in a word as all of it or not at all. -/
theorem apply_of_not_reads_word (hword : r.wholeWord = true) (hall : ∀ c ∈ s, isWord c = true)
    (h : ¬ r.Reads s) : r.apply s = s := by
  apply apply_of_not_occursAt
  rintro u c t rfl
  rw [← Bool.not_eq_true, occursAt_iff]
  rintro ⟨v, w, heq, hoccurs⟩
  have hv := List.getLast?_eq_some_getLast hoccurs.ne_nil
  have hvmem : ∀ d ∈ v, d ∈ u ++ c :: t := by
    intro d hd
    rw [heq]
    simp [hd]
  have hstart := hoccurs.start hword
  have hstop := hoccurs.stop hword
  by_cases hu : u = []
  · subst hu
    cases w with
    | nil =>
        rw [List.append_nil] at heq
        rw [List.nil_append, heq] at h
        exact h hoccurs.reads
    | cons e w =>
        have he : isWord e = true := hall e (by rw [List.nil_append, heq]; simp)
        have hlast := hall _ (hvmem _ (List.getLast_mem hoccurs.ne_nil))
        rw [hv] at hstop
        simp [isBoundary, hlast, he] at hstop
  · have hbefore := hall _ (List.mem_append_left (c :: t) (List.getLast_mem hu))
    have hfirst := hall _ (hvmem _ (List.head_mem hoccurs.ne_nil))
    rw [List.getLast?_eq_some_getLast hu, List.head?_eq_some_head hoccurs.ne_nil] at hstart
    simp [isBoundary, hbefore, hfirst] at hstart

end Rule

/-! ## Several passes -/

theorem substituteAll_append_rules (rules rules' : List Rule) (s : List Char) :
    substituteAll (rules ++ rules') s = substituteAll rules' (substituteAll rules s) := by
  simp [substituteAll]

theorem substituteAll_self {rules : List Rule} {s : List Char}
    (h : ∀ r ∈ rules, r.apply s = s) : substituteAll rules s = s := by
  induction rules with
  | nil => rfl
  | cons r rules ih =>
      show substituteAll rules (r.apply s) = s
      rw [h r (by simp)]
      exact ih fun q hq => h q (by simp [hq])

/-- Rules that write one sign each make no text in which their signs do not occur. -/
theorem infix_of_substituteAll {rules : List Rule} {s u : List Char}
    (hrules : ∀ r ∈ rules, ∃ g, r.replacement = .literal [g] ∧ g ∉ u)
    (h : u <:+: substituteAll rules s) :
    u <:+: s := by
  induction rules generalizing s with
  | nil => exact h
  | cons r rules ih =>
      obtain ⟨g, hg, hu⟩ := hrules r (by simp)
      have hstep : u <:+: r.apply s := ih (fun q hq => hrules q (by simp [hq])) h
      exact (r.rewrites_apply s).infix_of_notMem hg hu hstep

/-- If one rule rewrites a text and the others keep it, the text is rewritten once. -/
theorem substituteAll_of_unique {rules : List Rule} {r : Rule} {s s' : List Char} (hr : r ∈ rules)
    (happly : r.apply s = s') (hothers : ∀ q ∈ rules, q = r ∨ q.apply s = s)
    (hdone : ∀ q ∈ rules, q.apply s' = s') : substituteAll rules s = s' := by
  induction rules with
  | nil => cases hr
  | cons q rules ih =>
      have hdone' : ∀ p ∈ rules, p.apply s' = s' := fun p hp => hdone p (by simp [hp])
      show substituteAll rules (q.apply s) = s'
      rcases hothers q (by simp) with rfl | hkeep
      · rw [happly, substituteAll_self hdone']
      · by_cases heq : r = q
        · rw [← heq, happly, substituteAll_self hdone']
        · have hmem : r ∈ rules := (List.mem_cons.1 hr).resolve_left heq
          rw [hkeep]
          exact ih hmem (fun p hp => hothers p (by simp [hp])) hdone'

end Sentential.Text
