import Sentential.Text.Blank
import Sentential.Text.LetterCase
import Sentential.Text.WordChar
/-!
# Letters, word characters and blanks

A blank character is no word character.  Two letters of the basic alphabet are the same up to case
if their lower-case forms agree.  Other characters may count as the same letter, such as the long s
and the sign for kelvin, but all of them are word characters.  A blank is the same letter as no
other character.
-/

namespace Sentential.Text

/-! ## Ranges -/

theorem exists_range_of_inRanges {rs : List (Nat × Nat)} {n : Nat} (h : inRanges rs n = true) :
    ∃ r ∈ rs, r.1 ≤ n ∧ n ≤ r.2 := by
  induction rs with
  | nil => cases h
  | cons r rs ih =>
      obtain ⟨first, last⟩ := r
      simp only [inRanges, Bool.and_eq_true, Bool.or_eq_true, decide_eq_true_eq] at h
      rcases h with ⟨hfirst, hlast | hrest⟩
      · exact ⟨(first, last), by simp, hfirst, hlast⟩
      · obtain ⟨r, hr, hn⟩ := ih hrest
        exact ⟨r, by simp [hr], hn⟩

theorem inRanges_eq_false_of_disjoint {rs qs : List (Nat × Nat)} {n : Nat}
    (hdisjoint : ∀ r ∈ rs, ∀ q ∈ qs, r.2 < q.1 ∨ q.2 < r.1) (h : inRanges rs n = true) :
    inRanges qs n = false := by
  rw [← Bool.not_eq_true]
  intro hq
  obtain ⟨r, hr, hrfirst, hrlast⟩ := exists_range_of_inRanges h
  obtain ⟨q, hqmem, hqfirst, hqlast⟩ := exists_range_of_inRanges hq
  have := hdisjoint r hr q hqmem
  omega

theorem isWord_of_isBlank {c : Char} (h : isBlank c = true) : isWord c = false :=
  inRanges_eq_false_of_disjoint (by decide +kernel) h

theorem isBlank_of_isWord {c : Char} (h : isWord c = true) : isBlank c = false := by
  rw [← Bool.not_eq_true]
  intro hblank
  exact Bool.false_ne_true ((isWord_of_isBlank hblank).symm.trans h)

/-! ## The basic letters -/

theorem forall_char_of_forall_lt {P : Char → Prop} {b : Nat} (h : ∀ n < b, P (Char.ofNat n))
    {c : Char} (hc : c.toNat < b) : P c := by
  have hn := h c.toNat hc
  rwa [Char.ofNat_toNat] at hn

theorem isAlpha_of_isUpper {c : Char} (h : c.isUpper = true) : c.isAlpha = true :=
  Bool.or_eq_true_iff.2 (.inl h)

theorem toNat_lt_of_isAlpha {c : Char} (h : c.isAlpha = true) : c.toNat < 128 := by
  rcases Bool.or_eq_true_iff.1 h with hupper | hlower
  · have hlast : c.toNat ≤ 90 := UInt32.le_iff_toNat_le.1 (of_decide_eq_true hupper).2
    omega
  · have hlast : c.toNat ≤ 122 :=
      UInt32.le_iff_toNat_le.1 (of_decide_eq_true (Bool.and_eq_true_iff.1 hlower).2)
    omega

theorem forall_isAlpha {P : Char → Prop}
    (h : ∀ n < 128, (Char.ofNat n).isAlpha = true → P (Char.ofNat n)) {c : Char}
    (hc : c.isAlpha = true) : P c :=
  forall_char_of_forall_lt (P := fun c => c.isAlpha = true → P c) h (toNat_lt_of_isAlpha hc) hc

theorem isWord_of_isAlpha {c : Char} (h : c.isAlpha = true) : isWord c = true :=
  forall_isAlpha (P := fun c => isWord c = true) (by decide +kernel) h

theorem foldCode_of_isAlpha {c : Char} (h : c.isAlpha = true) :
    foldCode c.toNat = c.toLower.toNat :=
  forall_isAlpha (P := fun c => foldCode c.toNat = c.toLower.toNat) (by decide +kernel) h

theorem toLower_range_of_isAlpha {c : Char} (h : c.isAlpha = true) :
    97 ≤ c.toLower.toNat ∧ c.toLower.toNat ≤ 122 :=
  forall_isAlpha (P := fun c => 97 ≤ c.toLower.toNat ∧ c.toLower.toNat ≤ 122)
    (by decide +kernel) h

theorem toLower_toLower {c : Char} (h : c.isAlpha = true) : c.toLower.toLower = c.toLower :=
  forall_isAlpha (P := fun c => c.toLower.toLower = c.toLower) (by decide) h

theorem toLower_of_not_isAlpha {c : Char} (h : c.isAlpha = false) : c.toLower = c := by
  unfold Char.toLower
  rw [dif_neg]
  intro hupper
  have hc : c.isUpper = true := decide_eq_true hupper
  exact Bool.false_ne_true (h.symm.trans (isAlpha_of_isUpper hc))

theorem isAlpha_toLower (c : Char) : c.toLower.isAlpha = c.isAlpha := by
  cases h : c.isAlpha with
  | true => exact forall_isAlpha (P := fun c => c.toLower.isAlpha = true) (by decide) h
  | false => rw [toLower_of_not_isAlpha h, h]

theorem toUpper_toLower_of_isUpper {c : Char} (h : c.isUpper = true) : c.toLower.toUpper = c :=
  forall_isAlpha (P := fun c => c.isUpper = true → c.toLower.toUpper = c) (by decide)
    (isAlpha_of_isUpper h) h

theorem toLower_inj_of_isUpper {c d : Char} (hc : c.isUpper = true) (hd : d.isUpper = true)
    (h : c.toLower = d.toLower) : c = d :=
  calc c = c.toLower.toUpper := (toUpper_toLower_of_isUpper hc).symm
    _ = d.toLower.toUpper := by rw [h]
    _ = d := toUpper_toLower_of_isUpper hd

theorem sameLetter_iff_of_isAlpha {p c : Char} (hp : p.isAlpha = true) (hc : c.isAlpha = true) :
    sameLetter p c = true ↔ p.toLower = c.toLower := by
  rw [sameLetter, foldCode_of_isAlpha hp, foldCode_of_isAlpha hc, beq_iff_eq, Char.toNat_inj]

/-- The letters of a text, of which those that are the same up to case have one code. -/
def folded (s : List Char) : List Nat := s.map fun c => foldCode c.toNat

theorem folded_eq_iff_of_isAlpha {s t : List Char} (hs : ∀ c ∈ s, c.isAlpha = true)
    (ht : ∀ c ∈ t, c.isAlpha = true) :
    folded s = folded t ↔ s.map Char.toLower = t.map Char.toLower := by
  have hfolded : ∀ u : List Char, (∀ c ∈ u, c.isAlpha = true) →
      folded u = (u.map Char.toLower).map Char.toNat := by
    intro u hu
    rw [folded, List.map_map]
    exact List.map_congr_left fun c hc => foldCode_of_isAlpha (hu c hc)
  rw [hfolded s hs, hfolded t ht, List.map_inj_right fun c d => Char.toNat_inj.1]

/-! ## What counts as a basic letter -/

/-- Besides the basic lower-case letters, the dotless i and the long s count as one of them. -/
theorem lowerCode_of_foldCode {n : Nat} (hlow : 97 ≤ foldCode n) (hhigh : foldCode n ≤ 122) :
    (97 ≤ lowerCode n ∧ lowerCode n ≤ 122) ∨ lowerCode n = 0x131 ∨ lowerCode n = 0x17f := by
  have hvariants : ∀ e ∈ letterVariants, 97 ≤ e.2 → e.2 ≤ 122 → e.1 = 0x131 ∨ e.1 = 0x17f := by
    decide
  rcases foldCode_cases n with heq | hmem
  · exact .inl (heq ▸ ⟨hlow, hhigh⟩)
  · exact .inr (hvariants _ hmem hlow hhigh)

theorem toNat_of_sameLetter {p c : Char} (hp : p.isAlpha = true) (h : sameLetter p c = true) :
    (65 ≤ c.toNat ∧ c.toNat ≤ 90) ∨ (97 ≤ c.toNat ∧ c.toNat ≤ 122) ∨
      c.toNat = 0x130 ∨ c.toNat = 0x131 ∨ c.toNat = 0x17f ∨ c.toNat = 0x212a := by
  have hfold : foldCode c.toNat = p.toLower.toNat := by
    rw [← foldCode_of_isAlpha hp]
    exact (beq_iff_eq.1 h).symm
  have hrange := toLower_range_of_isAlpha hp
  have hlower := lowerCode_of_foldCode (n := c.toNat) (by omega) (by omega)
  -- Only the capitals, the dotted capital I and the kelvin sign move to one of these places.
  have hranges : ∀ r ∈ caseRanges,
      (65 ≤ r.first ∧ r.last ≤ 90) ∨ (r.first = 0x130 ∧ r.last = 0x130) ∨
        (r.first = 0x212a ∧ r.last = 0x212a) ∨
        (r.last + r.shift < 97 ∨ 0x17f < r.first + r.shift ∨
          (122 < r.first + r.shift ∧ r.last + r.shift < 0x131) ∨
          (0x131 < r.first + r.shift ∧ r.last + r.shift < 0x17f)) := by
    decide +kernel
  rcases lowerCode_cases c.toNat with heq | ⟨r, hr, hcontains, heq⟩
  · omega
  · have hr := hranges r hr
    simp only [CaseRange.contains, Bool.and_eq_true, decide_eq_true_eq] at hcontains
    omega

/-- Whatever counts as a basic letter is a word character. -/
theorem isWord_of_sameLetter {p c : Char} (hp : p.isAlpha = true) (h : sameLetter p c = true) :
    isWord c = true := by
  have hsmall := forall_char_of_forall_lt (c := c) (b := 0x180)
    (P := fun c => (65 ≤ c.toNat ∧ c.toNat ≤ 90) ∨ (97 ≤ c.toNat ∧ c.toNat ≤ 122) ∨
      c.toNat = 0x130 ∨ c.toNat = 0x131 ∨ c.toNat = 0x17f → isWord c = true)
    (by decide +kernel)
  by_cases hkelvin : c.toNat = 0x212a
  · unfold isWord
    rw [hkelvin]
    decide +kernel
  · have hc := toNat_of_sameLetter hp h
    exact hsmall (by omega) (by omega)

theorem isAlpha_of_sameLetter {p c : Char} (hp : p.isAlpha = true)
    (hplain : p.toLower ∉ ['i', 'k', 's']) (h : sameLetter p c = true) : c.isAlpha = true := by
  have hfold : foldCode c.toNat = p.toLower.toNat := by
    rw [← foldCode_of_isAlpha hp]
    exact (beq_iff_eq.1 h).symm
  have hother : ∀ n ∈ [0x130, 0x131, 0x17f, 0x212a],
      foldCode n ∈ ['i', 'k', 's'].map Char.toNat := by
    decide +kernel
  have hletter : c.toNat ∉ [0x130, 0x131, 0x17f, 0x212a] := by
    intro hmem
    have hcode := hother _ hmem
    rw [hfold, List.mem_map] at hcode
    obtain ⟨d, hd, heq⟩ := hcode
    exact hplain (Char.toNat_inj.1 heq ▸ hd)
  have hsmall := forall_char_of_forall_lt (c := c) (b := 128)
    (P := fun c => (65 ≤ c.toNat ∧ c.toNat ≤ 90) ∨ (97 ≤ c.toNat ∧ c.toNat ≤ 122) →
      c.isAlpha = true) (by decide)
  have hc := toNat_of_sameLetter hp h
  simp only [List.mem_cons, List.not_mem_nil, or_false] at hletter
  exact hsmall (by omega) (by omega)

/-- A basic letter other than i, k and s is the same letter as its own two forms only. -/
theorem sameLetter_iff_of_plain {p c : Char} (hp : p.isAlpha = true)
    (hplain : p.toLower ∉ ['i', 'k', 's']) :
    sameLetter p c = true ↔ c = p.toLower ∨ c = p.toUpper := by
  have hforms : ∀ {d : Char}, d.isAlpha = true →
      (d = d.toLower ∨ d = d.toUpper) ∧ d.toUpper.isAlpha = true ∧
        d.toUpper.toLower = d.toLower ∧ d.toLower.toUpper = d.toUpper :=
    fun hd => forall_isAlpha (P := fun d => (d = d.toLower ∨ d = d.toUpper) ∧
      d.toUpper.isAlpha = true ∧ d.toUpper.toLower = d.toLower ∧
        d.toLower.toUpper = d.toUpper) (by decide) hd
  obtain ⟨_, hupper, hlowered, hraised⟩ := hforms hp
  constructor
  · intro h
    have hc := isAlpha_of_sameLetter hp hplain h
    obtain ⟨hc', _, _, hcraised⟩ := hforms hc
    rw [sameLetter_iff_of_isAlpha hp hc] at h
    rwa [← hraised, h, hcraised]
  · rintro (rfl | rfl)
    · rw [sameLetter_iff_of_isAlpha hp ((isAlpha_toLower p).trans hp), toLower_toLower hp]
    · rw [sameLetter_iff_of_isAlpha hp hupper, hlowered]

theorem folded_singleton_eq_iff {p : Char} {s : List Char} (hp : p.isAlpha = true)
    (hplain : p.toLower ∉ ['i', 'k', 's']) :
    folded [p] = folded s ↔ s = [p.toLower] ∨ s = [p.toUpper] := by
  have hletter : folded [p] = folded s ↔ ∃ c, s = [c] ∧ sameLetter p c = true := by
    rw [folded, folded, List.map_singleton, eq_comm, List.map_eq_singleton_iff]
    simp only [sameLetter, beq_iff_eq, eq_comm (a := foldCode p.toNat)]
  rw [hletter]
  simp only [sameLetter_iff_of_plain hp hplain]
  constructor
  · rintro ⟨c, rfl, rfl | rfl⟩
    · exact .inl rfl
    · exact .inr rfl
  · rintro (rfl | rfl)
    · exact ⟨_, rfl, .inl rfl⟩
    · exact ⟨_, rfl, .inr rfl⟩

/-! ## Characters without case -/

/-- No code point of a range is a letter that has another form, and none is the form of another. -/
def IsCaseless (r : Nat × Nat) : Prop :=
  0 < r.1 ∧
    (∀ q ∈ caseRanges, (q.last < r.1 ∨ r.2 < q.first) ∧
      (q.last + q.shift < r.1 ∨ r.2 < q.first + q.shift)) ∧
    ∀ e ∈ letterVariants, (e.1 < r.1 ∨ r.2 < e.1) ∧ (e.2 < r.1 ∨ r.2 < e.2)

instance (r : Nat × Nat) : Decidable (IsCaseless r) := inferInstanceAs (Decidable (_ ∧ _))

theorem IsCaseless.foldCode_eq {r : Nat × Nat} (hr : IsCaseless r) {n : Nat} (hfirst : r.1 ≤ n)
    (hlast : n ≤ r.2) : foldCode n = n := by
  obtain ⟨_, hranges, hvariants⟩ := hr
  have hlower : lowerCode n = n := by
    rcases lowerCode_cases n with heq | ⟨q, hq, hcontains, _⟩
    · exact heq
    · have hdisjoint := (hranges q hq).1
      simp only [CaseRange.contains, Bool.and_eq_true, decide_eq_true_eq] at hcontains
      omega
  rcases foldCode_cases n with heq | hmem
  · rw [heq, hlower]
  · have hdisjoint := (hvariants _ hmem).1
    simp only [hlower] at hdisjoint
    omega

theorem IsCaseless.eq_of_foldCode_eq {r : Nat × Nat} (hr : IsCaseless r) {m n : Nat}
    (hfirst : r.1 ≤ n) (hlast : n ≤ r.2) (h : foldCode m = n) : m = n := by
  obtain ⟨hpos, hranges, hvariants⟩ := hr
  have hlower : lowerCode m = n := by
    rcases foldCode_cases m with heq | hmem
    · rw [← heq, h]
    · have hdisjoint := (hvariants _ hmem).2
      simp only [h] at hdisjoint
      omega
  rcases lowerCode_cases m with heq | ⟨q, hq, hcontains, heq⟩
  · rw [← heq, hlower]
  · have hdisjoint := (hranges q hq).2
    simp only [CaseRange.contains, Bool.and_eq_true, decide_eq_true_eq] at hcontains
    omega

theorem eq_of_sameLetter_of_inRanges {rs : List (Nat × Nat)} (hrs : ∀ r ∈ rs, IsCaseless r)
    {p c : Char} (hc : inRanges rs c.toNat = true) (h : sameLetter p c = true) : p = c := by
  obtain ⟨r, hr, hfirst, hlast⟩ := exists_range_of_inRanges hc
  have hfold : foldCode p.toNat = c.toNat :=
    (beq_iff_eq.1 h).trans ((hrs r hr).foldCode_eq hfirst hlast)
  exact Char.toNat_inj.1 ((hrs r hr).eq_of_foldCode_eq hfirst hlast hfold)

/-- A blank is the same letter as itself only. -/
theorem eq_of_sameLetter_of_isBlank {p c : Char} (hc : isBlank c = true)
    (h : sameLetter p c = true) : p = c :=
  eq_of_sameLetter_of_inRanges (by decide +kernel) hc h

theorem isBlank_of_sameLetter {p c : Char} (h : sameLetter p c = true) :
    isBlank p = isBlank c := by
  rw [Bool.eq_iff_iff]
  constructor
  · intro hp
    rw [sameLetter_comm] at h
    rwa [eq_of_sameLetter_of_isBlank hp h]
  · intro hc
    rwa [eq_of_sameLetter_of_isBlank hc h]

end Sentential.Text
