import Sentential.Proofs.Retokenizing
import Sentential.Proofs.Writing.Words
/-!
# Splitting tokens that have been joined, with words

Where words are spellings, a word can be cut off from what stands before it when the text is split,
and only then stand alone.  Joined by spaces, the tokens of a text are found again, except that such
a word becomes a glyph or an atom.  After that nothing is left to become one.
-/

namespace Sentential

open Text

namespace Alphabet

variable {a : Alphabet} {token : String} {s t : List Char} {ts : List String}

/-- What takes the place of a token that stands alone: the glyph if it is the word for a connective,
the atom if it is one up to case, and otherwise the token itself. -/
def respelled (a : Alphabet) (token : String) : String :=
  match Connective.all.find? (fun c => folded c.word.toList == folded token.toList) with
  | some c => c.text
  | none => (a.atoms.find? (fun name => folded name.toList == folded token.toList)).getD token

/-- A token of the language: an atom, a glyph or a parenthesis. -/
def IsCanonical (a : Alphabet) (token : String) : Prop :=
  token ∈ a.atoms ∨ (∃ c : Connective, token = c.text) ∨ token = "(" ∨ token = ")"

theorem respelled_cases (a : Alphabet) (token : String) :
    (∃ c : Connective, folded c.word.toList = folded token.toList ∧ a.respelled token = c.text) ∨
      (∀ c : Connective, folded c.word.toList ≠ folded token.toList) ∧
        ((∃ name ∈ a.atoms, folded name.toList = folded token.toList ∧ a.respelled token = name) ∨
          (∀ name ∈ a.atoms, folded name.toList ≠ folded token.toList) ∧
            a.respelled token = token) := by
  cases hword : Connective.all.find? (fun c => folded c.word.toList == folded token.toList) with
  | some c =>
      refine .inl ⟨c, by simpa using List.find?_some hword, ?_⟩
      rw [respelled, hword]
  | none =>
      have hwords : ∀ c : Connective, folded c.word.toList ≠ folded token.toList := fun c => by
        simpa using List.find?_eq_none.1 hword c c.mem_all
      refine .inr ⟨hwords, ?_⟩
      cases hatom : a.atoms.find? (fun name => folded name.toList == folded token.toList) with
      | some name =>
          have hfolded : folded name.toList = folded token.toList := by
            simpa using List.find?_some hatom
          refine .inl ⟨name, List.mem_of_find?_eq_some hatom, hfolded, ?_⟩
          rw [respelled, hword]
          simp only [hatom, Option.getD_some]
      | none =>
          refine .inr ⟨fun name hname => by simpa using List.find?_eq_none.1 hatom name hname, ?_⟩
          rw [respelled, hword]
          simp only [hatom, Option.getD_none]

/-! ## What a token becomes -/

theorem reads_wordRule_iff {c : Connective} :
    (wordRule c.word c.glyph).Reads t ↔ folded c.word.toList = folded t :=
  reads_iff_folded (isLetterRule_wordRule_word c)

/-- A word in which no letter stands for disjunction is rewritten as it is respelled. -/
theorem canonical_of_word (hwords : a.wordSpellings = true)
    (ha : ∀ name ∈ a.atoms, IsCapital name) (hword : ∀ c ∈ token.toList, isWord c = true)
    (hv : ∀ c ∈ token.toList, sameLetter 'v' c = false) :
    a.canonical token.toList = (a.respelled token).toList := by
  have hsymbols := substituteAll_symbolRules_word hword
  rcases a.respelled_cases token with ⟨c, hfolded, hc⟩ | ⟨hnone, hatom⟩
  · rw [hc, Connective.toList_text]
    apply canonical_of_wordRules_glyph hwords ha
    rw [hsymbols]
    exact substituteAll_wordRules_of_reads (reads_wordRule_iff.2 hfolded)
  · have hkept : substituteAll wordRules token.toList = token.toList :=
      substituteAll_wordRules_self hword (fun c h => hnone c (reads_wordRule_iff.1 h)) hv
    rw [canonical_of_words hwords, hsymbols, hkept]
    rcases hatom with ⟨name, hname, hfolded, hrespelled⟩ | ⟨hnone, hrespelled⟩
    · rw [hrespelled, substituteAll_atomRules_of_folded ha hname hfolded]
    · rw [hrespelled, substituteAll_atomRules_self ha hword hnone]

/-- Only words are respelled. -/
theorem respelled_of_not_word (ha : ∀ name ∈ a.atoms, IsCapital name)
    (hword : ∀ c ∈ token.toList, isWord c = false) : a.respelled token = token := by
  have hnot : ∀ {r : Rule}, IsLetterRule r → ¬ r.Reads token.toList := by
    intro r hrule hreads
    obtain ⟨c, t, hcons⟩ := List.exists_cons_of_ne_nil (hreads.ne_nil hrule.spelling_ne_nil)
    have hc : c ∈ token.toList := by
      rw [hcons]
      simp
    exact Bool.false_ne_true ((hword c hc).symm.trans (hrule.isWord_of_reads hreads c hc))
  rcases a.respelled_cases token with ⟨c, hfolded, _⟩ | ⟨_, ⟨name, hname, hfolded, _⟩ | ⟨_, h⟩⟩
  · exact absurd (reads_wordRule_iff.2 hfolded) (hnot (isLetterRule_wordRule_word c))
  · exact absurd ((reads_atomRule_iff (ha name hname)).2 hfolded)
      (hnot (isLetterRule_atomRule (ha name hname)))
  · exact h

theorem respelled_of_mem (ha : ∀ name ∈ a.atoms, IsCapital name) {name : String}
    (hname : name ∈ a.atoms) : a.respelled name = name := by
  rcases a.respelled_cases name with ⟨c, hfolded, _⟩ | ⟨_, ⟨other, hother, hfolded, h⟩ | ⟨_, h⟩⟩
  · have hlength := one_lt_length_of_reads_wordRule (reads_wordRule_iff.2 hfolded)
    obtain ⟨p, _, hp⟩ := ha name hname
    rw [hp] at hlength
    exact absurd hlength (by simp)
  · rw [h]
    exact eq_of_folded_eq (ha other hother) (ha name hname) hfolded
  · exact h

theorem respelled_text (ha : ∀ name ∈ a.atoms, IsCapital name) (c : Connective) :
    a.respelled c.text = c.text :=
  respelled_of_not_word ha (by simp [Connective.toList_text, c.isWord_glyph])

theorem respelled_respelled (ha : ∀ name ∈ a.atoms, IsCapital name) (token : String) :
    a.respelled (a.respelled token) = a.respelled token := by
  rcases a.respelled_cases token with ⟨c, _, h⟩ | ⟨_, ⟨name, hname, _, h⟩ | ⟨_, h⟩⟩
  · rw [h, respelled_text ha]
  · rw [h, respelled_of_mem ha hname]
  · rw [h, h]

theorem respelled_of_isCanonical (ha : ∀ name ∈ a.atoms, IsCapital name)
    (h : a.IsCanonical token) : a.respelled token = token := by
  rcases h with hname | ⟨c, rfl⟩ | rfl | rfl
  · exact respelled_of_mem ha hname
  · exact respelled_text ha c
  · exact respelled_of_not_word ha (List.forall_mem_singleton.2 (by decide +kernel))
  · exact respelled_of_not_word ha (List.forall_mem_singleton.2 (by decide +kernel))

/-! ## What is left in a canonical text -/

theorem infix_of_substituteAll_atomRules {atoms : List String}
    (hatoms : ∀ name ∈ atoms, IsCapital name)
    (ht : ∀ name ∈ atoms, ∀ p, p.isUpper = true → name.toList = [p] → p ∉ t)
    (h : t <:+: substituteAll (atoms.map atomRule) s) : t <:+: s := by
  apply infix_of_substituteAll _ h
  intro q hq
  obtain ⟨name, hname, rfl⟩ := List.mem_map.1 hq
  have htemplate := atomTemplate_of_notMem (hatoms name hname).backslash_notMem
  obtain ⟨p, hp, hpname⟩ := hatoms name hname
  rw [hpname] at htemplate
  exact ⟨p, htemplate, ht name hname p hp hpname⟩

/-- No sign that stands for a connective is left. -/
theorem not_infix_canonical_words (hwords : a.wordSpellings = true)
    (ha : ∀ name ∈ a.atoms, IsCapital name) {r : Rule} (hr : r ∈ symbolRules) (s : List Char) :
    ¬ r.spelling <:+: a.canonical s := by
  have hsign := isSignRule_of_mem_symbolRules hr
  have hletters : ∀ r ∈ symbolRules, r.spelling.all (!Char.isAlpha ·) = true := by decide
  intro h
  -- neither an atom nor a glyph is part of a sign, so the passes after the signs made none
  rw [canonical_of_words hwords] at h
  have hatoms := infix_of_substituteAll_atomRules ha (fun name _ p hp _ hmem => ?_) h
  · have hsymbols := infix_of_substituteAll (fun q hq => ?_) hatoms
    · exact not_infix_substituteAll (fun q hq => isSignRule_of_mem_symbolRules hq) hr s hsymbols
    · rcases mem_wordRules_iff.1 hq with ⟨c, rfl⟩ | rfl
      · exact ⟨c.glyph, rfl, hsign.noGlyph c⟩
      · exact ⟨_, rfl, hsign.noGlyph (.binary .or)⟩
  · have halpha := List.all_eq_true.1 (hletters r hr) p hmem
    rw [isAlpha_of_isUpper hp] at halpha
    cases halpha

/-- No letter that stands for disjunction is left. -/
theorem not_sameLetter_v_of_mem_canonical (hwords : a.wordSpellings = true)
    (ha : ∀ name ∈ a.atoms, IsCapital name) (hV : "V" ∉ a.atoms) {c : Char}
    (hc : c ∈ a.canonical s) : sameLetter 'v' c = false := by
  rw [← Bool.not_eq_true]
  intro hv
  rw [canonical_of_words hwords, ← List.singleton_infix_iff] at hc
  have hmem := infix_of_substituteAll_atomRules ha (fun name hname p hp hpname hmem => ?_) hc
  · rw [List.singleton_infix_iff, wordRules_eq, substituteAll_append_rules] at hmem
    exact Bool.false_ne_true ((not_sameLetter_v_of_mem_apply _ c hmem).symm.trans hv)
  · rw [← List.mem_singleton.1 hmem, sameLetter_iff_of_isAlpha (by decide) (isAlpha_of_isUpper hp)]
      at hv
    exact toLower_ne_v hV hname hp hpname hv.symm

theorem canonical_of_not_word (hwords : a.wordSpellings = true)
    (ha : ∀ name ∈ a.atoms, IsCapital name) (hsigns : ∀ r ∈ symbolRules, ¬ r.spelling <:+: t)
    (hword : ∀ c ∈ t, isWord c = false) : a.canonical t = t := by
  have hsymbols : substituteAll symbolRules t = t := substituteAll_self fun r hr =>
    (isSignRule_of_mem_symbolRules hr).apply_of_not_isInfix (hsigns r hr)
  have hwordRules : substituteAll wordRules t = t := substituteAll_self fun r hr =>
    (isLetterRule_of_mem_wordRules hr).apply_self hword
  rw [canonical_of_words hwords, hsymbols, hwordRules,
    substituteAll_atomRules_of_not_word ha hword]

/-! ## Tokens that have been joined -/

/-- A token has word characters only, or none. -/
theorem Leads.isWord_or_not (ha : ∀ name ∈ a.atoms, IsCapital name) (h : a.Leads t s) :
    (∀ c ∈ t, isWord c = true) ∨ ∀ c ∈ t, isWord c = false := by
  cases h with
  | @atom before after name s hatoms _ _ =>
      obtain ⟨p, hp, hpname⟩ := ha name (by rw [hatoms]; simp)
      rw [hpname]
      exact .inl (List.forall_mem_singleton.2 (isWord_of_isAlpha (isAlpha_of_isUpper hp)))
  | mark _ hc =>
      refine .inr (List.forall_mem_singleton.2 ?_)
      rcases isMark_iff.1 hc with rfl | rfl | ⟨d, rfl⟩
      · decide +kernel
      · decide +kernel
      · exact d.isWord_glyph
  | word _ _ hword _ => exact .inl hword
  | other _ _ hword _ => exact .inr (List.forall_mem_singleton.2 hword)

theorem leads_respelled (ha : ∀ name ∈ a.atoms, IsCapital name) (h : a.Leads token.toList s) :
    a.Leads (a.respelled token).toList s := by
  rcases a.respelled_cases token with ⟨c, _, hrespelled⟩ | ⟨_, ⟨name, hname, _, hrespelled⟩ |
    ⟨_, hrespelled⟩⟩
  · rw [hrespelled]
    exact leads_text ha c s
  · rw [hrespelled]
    exact leads_of_mem ha hname s
  · rwa [hrespelled]

/-- The tokens of any text, joined by spaces, have the same tokens up to respelling. -/
theorem tokens_joinTokens_words (hwords : a.wordSpellings = true)
    (ha : ∀ name ∈ a.atoms, IsCapital name) (hV : "V" ∉ a.atoms) (s : String) :
    a.tokens (.text (joinTokens (a.tokens (.text s)))) =
      (a.tokens (.text s)).map a.respelled := by
  have hsolid := isSolid_of_mem ha
  rw [tokens_text hsolid s, tokens_text hsolid]
  refine (splits_canonical_joinTokens hsolid ?_).split_eq hsolid
  intro token htoken
  obtain ⟨hpart, s', hleads⟩ := (splits_split hsolid _).exists_leads htoken
  refine ⟨?_, s', leads_respelled ha hleads⟩
  rcases hleads.isWord_or_not ha with hword | hword
  · exact canonical_of_word hwords ha hword fun c hc =>
      not_sameLetter_v_of_mem_canonical hwords ha hV (hpart.subset hc)
  · rw [respelled_of_not_word ha hword]
    exact canonical_of_not_word hwords ha
      (fun r hr h => not_infix_canonical_words hwords ha hr _ (h.trans hpart)) hword

theorem IsCanonical.spells_self (h : a.IsCanonical token) : a.Spells token token.toList := by
  rcases h with hname | ⟨c, rfl⟩ | rfl | rfl
  · exact .atom hname
  · rw [Connective.toList_text]
    exact .glyph c
  · exact .opening
  · exact .closing

/-- Tokens of the language, joined by spaces, are found again. -/
theorem tokens_joinTokens_of_isCanonical (hwords : a.wordSpellings = true)
    (ha : ∀ name ∈ a.atoms, IsCapital name) (hV : "V" ∉ a.atoms)
    (hts : ∀ token ∈ ts, a.IsCanonical token) : a.tokens (.text (joinTokens ts)) = ts := by
  have hsolid := isSolid_of_mem ha
  have hsplits := splits_canonical_joinTokens (f := id) hsolid fun token htoken =>
    have hspells := (hts token htoken).spells_self
    ⟨canonical_of_spells_words hwords ha hV hspells, [], leads_of_spells ha hspells []⟩
  rw [tokens_text hsolid, hsplits.split_eq hsolid, List.map_id]

/-- The tokens of a text, joined by spaces. -/
def retokenized (a : Alphabet) (s : String) : String := joinTokens (a.tokens (.text s))

/-- Splitting the tokens of a text once more changes only the words that now stand alone, and a
third time changes nothing.  Tokens of the language are found again at once. -/
theorem tokens_retokenized_diagram :
    (∀ s : String, diagram.tokens (.text (diagram.retokenized s)) =
      (diagram.tokens (.text s)).map diagram.respelled) ∧
    (∀ token, diagram.IsCanonical token → diagram.respelled token = token) ∧
    (∀ ts : List String, (∀ token ∈ ts, diagram.IsCanonical token) →
      diagram.tokens (.text (joinTokens ts)) = ts) ∧
    (∀ s : String, diagram.tokens (.text (diagram.retokenized (diagram.retokenized s))) =
      diagram.tokens (.text (diagram.retokenized s))) := by
  have ha := isCapital_of_mem_diagram
  have hV : "V" ∉ diagram.atoms := by decide
  have hlaw : ∀ s : String, diagram.tokens (.text (diagram.retokenized s)) =
      (diagram.tokens (.text s)).map diagram.respelled := tokens_joinTokens_words rfl ha hV
  refine ⟨hlaw, fun token htoken => respelled_of_isCanonical ha htoken,
    fun ts hts => tokens_joinTokens_of_isCanonical rfl ha hV hts, fun s => ?_⟩
  rw [hlaw, hlaw, List.map_map]
  apply List.map_congr_left
  intro token _
  exact respelled_respelled ha token

/-- A word that an atom or the letter v cuts off is a token of its own, and a connective only when
the tokens are split again. -/
theorem tokens_retokenized_diagram_cut :
    diagram.tokens (.text "Pand vNOT q1") = ["P", "and", "∨", "NOT", "q1"] ∧
      ["P", "and", "∨", "NOT", "q1"].map diagram.respelled = ["P", "∧", "∨", "¬", "q1"] ∧
      diagram.tokens (.text (diagram.retokenized "Pand vNOT q1")) = ["P", "∧", "∨", "¬", "q1"] ∧
      (∀ token ∈ ["P", "∧", "(", "Q", ")"], diagram.IsCanonical token) ∧
      diagram.tokens (.text (joinTokens ["P", "∧", "(", "Q", ")"])) =
        ["P", "∧", "(", "Q", ")"] := by
  have htokens : diagram.tokens (.text "Pand vNOT q1") = ["P", "and", "∨", "NOT", "q1"] := by
    decide +kernel
  have hrespelled : ["P", "and", "∨", "NOT", "q1"].map diagram.respelled =
      ["P", "∧", "∨", "¬", "q1"] := by decide +kernel
  have hcanonical : ∀ token ∈ ["P", "∧", "(", "Q", ")"], diagram.IsCanonical token := by
    intro token htoken
    simp only [List.mem_cons, List.not_mem_nil, or_false] at htoken
    rcases htoken with rfl | rfl | rfl | rfl | rfl
    · exact .inl (by decide)
    · exact .inr (.inl ⟨.binary .and, rfl⟩)
    · exact .inr (.inr (.inl rfl))
    · exact .inl (by decide)
    · exact .inr (.inr (.inr rfl))
  obtain ⟨hlaw, _, hfixed, _⟩ := tokens_retokenized_diagram
  refine ⟨htokens, hrespelled, ?_, hcanonical, hfixed _ hcanonical⟩
  rw [hlaw, htokens, hrespelled]

end Alphabet

end Sentential
