import Sentential.Proofs.Writing
/-!
# Writing tokens with words

Where words are spellings, every spelling that consists of letters is a word of its own, and it is
rewritten by one rule: the rules before it leave it alone, and those after it find nothing left to
do.  So the order of the rules matters only to the signs, of which one ends in another.
-/

namespace Sentential

open Text

/-! ## What a word is read as -/

section

variable {r : Rule} {t : List Char}

theorem reads_iff_folded (h : IsLetterRule r) : r.Reads t ↔ folded r.spelling = folded t := by
  have hsame : (fun p c => r.same p c = true) = fun p c => foldCode p.toNat = foldCode c.toNat := by
    funext p c
    rw [Rule.same, h.anyCase, if_pos rfl, sameLetter, beq_iff_eq]
  rw [Rule.Reads, hsame, folded, folded, ← List.forall₂_eq_eq_eq, List.forall₂_map_left_iff,
    List.forall₂_map_right_iff]

theorem reads_iff_map_toLower (h : IsLetterRule r) (ht : ∀ c ∈ t, c.isAlpha = true) :
    r.Reads t ↔ t.map Char.toLower = r.spelling.map Char.toLower := by
  rw [reads_iff_folded h, folded_eq_iff_of_isAlpha h.letters ht, eq_comm]

end

/-! ## The rules for words -/

/-- The letter v in either case stands for disjunction. -/
def eitherCaseRule : Rule := { spelling := ['v'], replacement := .literal ['∨'], anyCase := true }

theorem wordRules_eq :
    wordRules =
      [.binary .iff, .binary .implies, .not, .binary .and, .binary .or].map
        (fun c : Connective => wordRule c.word c.glyph) ++ [eitherCaseRule] := rfl

theorem mem_wordRules_iff {r : Rule} :
    r ∈ wordRules ↔ (∃ c : Connective, r = wordRule c.word c.glyph) ∨ r = eitherCaseRule := by
  rw [wordRules_eq, List.mem_append, List.mem_map, List.mem_singleton]
  have hall : ∀ c : Connective,
      c ∈ [.binary .iff, .binary .implies, .not, .binary .and, .binary .or] := by
    rintro (_ | (_ | _ | _ | _)) <;> decide
  constructor
  · rintro (⟨c, _, rfl⟩ | rfl)
    · exact .inl ⟨c, rfl⟩
    · exact .inr rfl
  · rintro (⟨c, rfl⟩ | rfl)
    · exact .inl ⟨c, hall c, rfl⟩
    · exact .inr rfl

theorem isLetterRule_wordRule_word (c : Connective) : IsLetterRule (wordRule c.word c.glyph) :=
  isLetterRule_of_mem_wordRules (mem_wordRules_iff.2 (.inl ⟨c, rfl⟩))

theorem map_toLower_word (c : Connective) : c.word.toList.map Char.toLower = c.word.toList := by
  rcases c with _ | (_ | _ | _ | _) <;> decide

section

variable {c d : Connective} {t : List Char}

theorem reads_wordRule_of_map_toLower (ht : t.map Char.toLower = c.word.toList) :
    (wordRule c.word c.glyph).Reads t := by
  have halpha := Connective.isAlpha_of_map_toLower ht
  rw [reads_iff_map_toLower (isLetterRule_wordRule_word c) halpha]
  show t.map Char.toLower = c.word.toList.map Char.toLower
  rw [map_toLower_word, ht]

/-- A text is read as one word only. -/
theorem eq_of_reads_wordRule (hc : (wordRule c.word c.glyph).Reads t)
    (hd : (wordRule d.word d.glyph).Reads t) : c = d := by
  have hwords : ∀ c ∈ Connective.all, ∀ d ∈ Connective.all,
      folded c.word.toList = folded d.word.toList → c = d := by
    decide +kernel
  rw [reads_iff_folded (isLetterRule_wordRule_word c)] at hc
  rw [reads_iff_folded (isLetterRule_wordRule_word d)] at hd
  exact hwords c c.mem_all d d.mem_all (hc.trans hd.symm)

theorem one_lt_length_of_reads_wordRule (h : (wordRule c.word c.glyph).Reads t) :
    1 < t.length := by
  rw [h.length_eq]
  show 1 < c.word.toList.length
  rcases c with _ | (_ | _ | _ | _) <;> decide

theorem not_sameLetter_v_of_reads_wordRule (h : (wordRule c.word c.glyph).Reads t) :
    ∀ d ∈ t, sameLetter 'v' d = false := by
  have hwords : ∀ c ∈ Connective.all, foldCode 'v'.toNat ∉ folded c.word.toList := by
    decide +kernel
  have hfolded : folded c.word.toList = folded t :=
    (reads_iff_folded (isLetterRule_wordRule_word c)).1 h
  intro d hd
  rw [← Bool.not_eq_true, sameLetter, beq_iff_eq]
  intro hv
  apply hwords c c.mem_all
  rw [hfolded, hv]
  exact List.mem_map_of_mem hd

theorem apply_eitherCaseRule_self (h : ∀ d ∈ t, sameLetter 'v' d = false) :
    eitherCaseRule.apply t = t := by
  apply Rule.apply_of_forall_not_same
  intro p hp d hd
  cases hp
  exact h d hd

theorem not_sameLetter_v_of_mem_apply (s : List Char) :
    ∀ d ∈ eitherCaseRule.apply s, sameLetter 'v' d = false := by
  intro d hd
  rw [Rule.apply_of_spelling_singleton (p := 'v') rfl rfl, List.mem_flatMap] at hd
  obtain ⟨c, _, hd⟩ := hd
  cases hsame : sameLetter 'v' c with
  | true =>
      have hglyph : d ∈ ['∨'] := by
        have hrule : eitherCaseRule.same 'v' c = true := hsame
        rwa [if_pos hrule] at hd
      rw [List.mem_singleton.1 hglyph]
      decide +kernel
  | false =>
      have hrule : ¬ eitherCaseRule.same 'v' c = true := by
        rw [Bool.not_eq_true]
        exact hsame
      rw [if_neg hrule] at hd
      rw [List.mem_singleton.1 hd, hsame]

theorem apply_wordRules_glyph (c : Connective) : ∀ r ∈ wordRules, r.apply [c.glyph] = [c.glyph] :=
  fun _ hr => (isLetterRule_of_mem_wordRules hr).apply_self (by simp [c.isWord_glyph])

/-- The word for a connective, in any case, becomes its glyph. -/
theorem substituteAll_wordRules_of_reads (h : (wordRule c.word c.glyph).Reads t) :
    substituteAll wordRules t = [c.glyph] := by
  have hrule := isLetterRule_wordRule_word c
  have hword := hrule.isWord_of_reads h
  refine substituteAll_of_unique (mem_wordRules_iff.2 (.inl ⟨c, rfl⟩))
    (Rule.apply_of_reads_word (h.ne_nil hrule.spelling_ne_nil) hword h) ?_ (apply_wordRules_glyph c)
  intro q hq
  rcases mem_wordRules_iff.1 hq with ⟨d, rfl⟩ | rfl
  · by_cases hd : (wordRule d.word d.glyph).Reads t
    · exact .inl (eq_of_reads_wordRule hd h ▸ rfl)
    · exact .inr (Rule.apply_of_not_reads_word rfl hword hd)
  · exact .inr (apply_eitherCaseRule_self (not_sameLetter_v_of_reads_wordRule h))

/-- Where no whole word is found only the letter v is left to be replaced. -/
theorem substituteAll_wordRules_eq_apply
    (h : ∀ c : Connective, (wordRule c.word c.glyph).apply t = t) :
    substituteAll wordRules t = eitherCaseRule.apply t := by
  rw [wordRules_eq, substituteAll_append_rules]
  show eitherCaseRule.apply (substituteAll _ t) = _
  rw [substituteAll_self]
  intro q hq
  obtain ⟨c, _, rfl⟩ := List.mem_map.1 hq
  exact h c

/-- Every other word without the letter v is kept. -/
theorem substituteAll_wordRules_self (hword : ∀ d ∈ t, isWord d = true)
    (hwords : ∀ c : Connective, ¬ (wordRule c.word c.glyph).Reads t)
    (hv : ∀ d ∈ t, sameLetter 'v' d = false) : substituteAll wordRules t = t := by
  rw [substituteAll_wordRules_eq_apply fun c => Rule.apply_of_not_reads_word rfl hword (hwords c),
    apply_eitherCaseRule_self hv]

/-- The letter v in either case becomes the glyph for disjunction. -/
theorem substituteAll_wordRules_v {c : Char} (hc : c.isAlpha = true) (hv : c.toLower = 'v') :
    substituteAll wordRules [c] = ['∨'] := by
  have hword : ∀ d ∈ [c], isWord d = true :=
    List.forall_mem_singleton.2 (isWord_of_isAlpha hc)
  have hsame : eitherCaseRule.same 'v' c = true :=
    (sameLetter_iff_of_isAlpha (by decide) hc).2 hv.symm
  have hshort : ∀ d : Connective, ¬ (wordRule d.word d.glyph).Reads [c] := fun d hreads =>
    absurd (one_lt_length_of_reads_wordRule hreads) (by simp)
  rw [substituteAll_wordRules_eq_apply fun d => Rule.apply_of_not_reads_word rfl hword (hshort d),
    Rule.apply_of_spelling_singleton rfl rfl, List.flatMap_singleton, if_pos hsame]
  rfl

end

/-! ## The rules for atoms -/

section

variable {atoms : List String} {name other : String} {t : List Char}

theorem reads_atomRule_iff (hname : IsCapital name) :
    (atomRule name).Reads t ↔ folded name.toList = folded t :=
  reads_iff_folded (isLetterRule_atomRule hname)

theorem eq_of_folded_eq (hname : IsCapital name) (hother : IsCapital other)
    (h : folded name.toList = folded other.toList) : name = other := by
  obtain ⟨p, hp, hpname⟩ := hname
  obtain ⟨q, hq, hqother⟩ := hother
  rw [hpname, hqother, folded_eq_iff_of_isAlpha (by simpa using isAlpha_of_isUpper hp)
    (by simpa using isAlpha_of_isUpper hq), List.map_singleton, List.map_singleton,
    List.singleton_inj] at h
  rw [← String.toList_inj, hpname, hqother, toLower_inj_of_isUpper hp hq h]

/-- A word that is an atom up to case becomes the atom. -/
theorem substituteAll_atomRules_of_folded (hatoms : ∀ name ∈ atoms, IsCapital name)
    (hmem : name ∈ atoms) (h : folded name.toList = folded t) :
    substituteAll (atoms.map atomRule) t = name.toList := by
  have hrule := isLetterRule_atomRule (hatoms name hmem)
  have happly : ∀ u, folded name.toList = folded u → (atomRule name).apply u = name.toList := by
    intro u hu
    have hreads := (reads_iff_folded hrule).2 hu
    have hword := hrule.isWord_of_reads hreads
    rw [Rule.apply_of_reads_word (hreads.ne_nil hrule.spelling_ne_nil) hword hreads,
      (hatoms name hmem).written_atomRule]
  -- what is read as this atom is read as no other one
  have hothers : ∀ u, folded name.toList = folded u → ∀ q ∈ atoms.map atomRule,
      q = atomRule name ∨ q.apply u = u := by
    intro u hu q hq
    obtain ⟨other, hother, rfl⟩ := List.mem_map.1 hq
    by_cases heq : other = name
    · exact .inl (heq ▸ rfl)
    · have hword := hrule.isWord_of_reads ((reads_iff_folded hrule).2 hu)
      refine .inr (Rule.apply_of_not_reads_word rfl hword fun hreads => heq ?_)
      have hfolded := (reads_atomRule_iff (hatoms other hother)).1 hreads
      exact eq_of_folded_eq (hatoms other hother) (hatoms name hmem) (hfolded.trans hu.symm)
  refine substituteAll_of_unique (List.mem_map_of_mem hmem) (happly t h) (hothers t h) ?_
  intro q hq
  rcases hothers name.toList rfl q hq with rfl | hkeep
  · exact happly _ rfl
  · exact hkeep

theorem substituteAll_atomRules_of_not_word (hatoms : ∀ name ∈ atoms, IsCapital name)
    (hword : ∀ d ∈ t, isWord d = false) : substituteAll (atoms.map atomRule) t = t := by
  apply substituteAll_self
  intro q hq
  obtain ⟨name, hname, rfl⟩ := List.mem_map.1 hq
  exact (isLetterRule_atomRule (hatoms name hname)).apply_self hword

/-- Every other word is kept. -/
theorem substituteAll_atomRules_self (hatoms : ∀ name ∈ atoms, IsCapital name)
    (hword : ∀ d ∈ t, isWord d = true) (h : ∀ name ∈ atoms, folded name.toList ≠ folded t) :
    substituteAll (atoms.map atomRule) t = t := by
  apply substituteAll_self
  intro q hq
  obtain ⟨name, hname, rfl⟩ := List.mem_map.1 hq
  apply Rule.apply_of_not_reads_word rfl hword
  rw [reads_atomRule_iff (hatoms name hname)]
  exact h name hname

end

namespace Alphabet

variable {a : Alphabet} {token : String} {t : List Char} {ts : List String}

/-- Once a spelling has become a glyph, the rules for atoms keep it. -/
theorem canonical_of_wordRules_glyph (hwords : a.wordSpellings = true)
    (ha : ∀ name ∈ a.atoms, IsCapital name) {c : Connective}
    (h : substituteAll wordRules (substituteAll symbolRules t) = [c.glyph]) :
    a.canonical t = [c.glyph] := by
  rw [canonical_of_words hwords, h]
  exact substituteAll_atomRules_of_not_word ha (by simp [c.isWord_glyph])

/-- The letter v is no atom in either case. -/
theorem toLower_ne_v {name : String} {p : Char} (hV : "V" ∉ a.atoms) (hname : name ∈ a.atoms)
    (hp : p.isUpper = true) (hpname : name.toList = [p]) : p.toLower ≠ 'v' := by
  intro hpv
  have hpV : p = 'V' := toLower_inj_of_isUpper hp (by decide) hpv
  have hnameV : name = "V" := String.toList_inj.1 (by rw [hpname, hpV]; rfl)
  exact hV (hnameV ▸ hname)

theorem canonical_letter (hwords : a.wordSpellings = true) (ha : ∀ name ∈ a.atoms, IsCapital name)
    (hV : "V" ∉ a.atoms) {name : String} (hname : name ∈ a.atoms) {c : Char}
    (hc : c.isAlpha = true) (hlower : [c.toLower] = name.toList.map Char.toLower) :
    a.canonical [c] = name.toList := by
  have halpha : ∀ d ∈ [c], d.isAlpha = true := by simpa using hc
  have hword : ∀ d ∈ [c], isWord d = true := fun d hd => isWord_of_isAlpha (halpha d hd)
  have hv : sameLetter 'v' c = false := by
    obtain ⟨p, hp, hpname⟩ := ha name hname
    rw [hpname, List.map_singleton, List.singleton_inj] at hlower
    rw [← Bool.not_eq_true, sameLetter_iff_of_isAlpha (by decide) hc, hlower]
    exact Ne.symm (toLower_ne_v hV hname hp hpname)
  have hfolded : folded name.toList = folded [c] := by
    have hletters : ∀ d ∈ name.toList, d.isAlpha = true :=
      (isLetterRule_atomRule (ha name hname)).letters
    rw [folded_eq_iff_of_isAlpha hletters halpha, ← hlower, List.map_singleton]
  rw [canonical_of_words hwords, substituteAll_symbolRules_word hword,
    substituteAll_wordRules_self hword
      (fun d hreads => absurd (one_lt_length_of_reads_wordRule hreads) (by simp))
      (by simpa using hv),
    substituteAll_atomRules_of_folded ha hname hfolded]

theorem canonical_of_spells_words (hwords : a.wordSpellings = true)
    (ha : ∀ name ∈ a.atoms, IsCapital name) (hV : "V" ∉ a.atoms) (h : a.Spells token t) :
    a.canonical t = token.toList := by
  have hletters : a.HasLetters := fun _ => ha
  cases h with
  | atom hname =>
      obtain ⟨c, hc, heq⟩ := ha _ hname
      rw [heq, canonical_letter hwords ha hV hname (isAlpha_of_isUpper hc) (by rw [heq]; rfl), heq]
  | lowerAtom _ hname =>
      obtain ⟨c, hc, heq⟩ := ha _ hname
      have halpha := isAlpha_of_isUpper hc
      have hlower : c.toLower.isAlpha = true := (isAlpha_toLower c).trans halpha
      rw [heq, List.map_singleton, canonical_letter hwords ha hV hname hlower ?_, heq]
      rw [heq, List.map_singleton, toLower_toLower halpha]
  | opening => exact canonical_singleton hletters (by decide) (by decide +kernel)
  | closing => exact canonical_singleton hletters (by decide) (by decide +kernel)
  | glyph c => rw [Connective.toList_text, canonical_glyph hletters]
  | @sign c t ht =>
      have hsigns : ∀ c ∈ Connective.all, ∀ t ∈ c.signs,
          substituteAll wordRules (substituteAll symbolRules t.toList) = [c.glyph] := by
        decide +kernel
      rw [Connective.toList_text]
      exact canonical_of_wordRules_glyph hwords ha (hsigns c c.mem_all t ht)
  | capitalV _ =>
      rw [Connective.toList_text]
      apply canonical_of_wordRules_glyph hwords ha
      rw [substituteAll_symbolRules_word (List.forall_mem_singleton.2 (by decide +kernel))]
      exact substituteAll_wordRules_v (by decide) (by decide)
  | word _ ht =>
      rw [Connective.toList_text]
      apply canonical_of_wordRules_glyph hwords ha
      have hreads := reads_wordRule_of_map_toLower ht
      rw [substituteAll_symbolRules_word ((isLetterRule_wordRule_word _).isWord_of_reads hreads)]
      exact substituteAll_wordRules_of_reads hreads

/-- Where words are spellings the tokens are found however they are written, if a blank stands
between word characters that would meet. -/
theorem tokens_of_writes_words {s : String} (hwords : a.wordSpellings = true)
    (hatoms : ∀ name ∈ a.atoms, IsCapital name) (hV : "V" ∉ a.atoms)
    (h : a.Writes ts s.toList) : a.tokens (.text s) = ts :=
  h.tokens_text_eq hatoms fun _ _ ht => canonical_of_spells_words hwords hatoms hV ht

theorem isCapital_of_mem_diagram : ∀ name ∈ diagram.atoms, IsCapital name := by
  simp only [diagram, List.forall_mem_cons, List.not_mem_nil, false_imp_iff, implies_true, and_true]
  exact ⟨⟨'P', by decide⟩, ⟨'Q', by decide⟩⟩

/-- Words in mixed case and letters in either case, with blanks only where words would meet. -/
theorem tokens_of_writes_words_mixed :
    diagram.Writes ["¬", "P", "→", "(", "Q", "∨", "P", ")"] "nOt p->(q\tV P)".toList ∧
      diagram.tokens (.text "nOt p->(q\tV P)") = ["¬", "P", "→", "(", "Q", "∨", "P", ")"] := by
  have hgap : ∀ {s t : List Char},
      (t.getLast?.any fun d => s.head?.any fun e => isWord d && isWord e) = false →
        diagram.wordSpellings = true →
          ∀ d ∈ t.getLast?, ∀ e ∈ s.head?, ¬ (isWord d = true ∧ isWord e = true) := by
    intro s t h _ d hd e he hword
    rw [Option.mem_def] at hd he
    simp [hd, he, hword] at h
  have hnone : ∀ c ∈ ([] : List Char), isBlank c = true := List.forall_mem_nil _
  have hspace : ∀ c ∈ [' '], isBlank c = true := List.forall_mem_singleton.2 (by decide)
  have htab : ∀ c ∈ ['\t'], isBlank c = true := List.forall_mem_singleton.2 (by decide)
  have hclose : diagram.Writes ["P", ")"] " P)".toList :=
    .cons hspace (.atom (by decide)) (.cons hnone .closing (.nil hnone) (hgap (by decide +kernel)))
      (hgap (by decide +kernel))
  have hor : diagram.Writes ["∨", "P", ")"] "\tV P)".toList :=
    .cons htab (.capitalV rfl) hclose (hgap (by decide +kernel))
  have hopen : diagram.Writes ["(", "Q", "∨", "P", ")"] "(q\tV P)".toList :=
    .cons hnone .opening (.cons hnone (.lowerAtom rfl (by decide)) hor (hgap (by decide +kernel)))
      (hgap (by decide +kernel))
  have hP : diagram.Writes ["P", "→", "(", "Q", "∨", "P", ")"] " p->(q\tV P)".toList :=
    .cons hspace (.lowerAtom rfl (by decide)) (.cons hnone
      (.sign (c := .binary .implies) (t := "->") (by decide)) hopen (hgap (by decide +kernel)))
      (hgap (by decide +kernel))
  have hnot : diagram.Writes ["¬", "P", "→", "(", "Q", "∨", "P", ")"]
      "nOt p->(q\tV P)".toList :=
    .cons hnone (.word (c := .not) (t := ['n', 'O', 't']) rfl (by decide)) hP
      (hgap (by decide +kernel))
  exact ⟨hnot, tokens_of_writes_words rfl isCapital_of_mem_diagram (by decide) hnot⟩

end Alphabet

end Sentential
