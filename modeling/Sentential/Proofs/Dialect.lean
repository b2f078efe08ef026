import Sentential.Proofs.Region.Classification
import Sentential.Proofs.Writing.Words
/-!
# Where the two alphabets agree

A text whose word characters are the two atoms of a diagram and the letter v can be read with either
alphabet.  No rule for words finds anything in it, the letter v is replaced in one case as in the
other, and the two further atoms do not occur.  So both alphabets find the same tokens, and from
there on they do the same.
-/

namespace Sentential

open Text

/-- The word characters of a text belong to both alphabets. -/
def IsCommon (s : List Char) : Prop :=
  ∀ c ∈ s, isWord c = true → c = 'P' ∨ c = 'Q' ∨ c = 'v'

/-! ## Rewriting -/

section

variable {s t : List Char}

theorem IsCommon.substituteAll (hs : IsCommon s) {rules : List Rule}
    (hrules : ∀ r ∈ rules, IsSignRule r) : IsCommon (substituteAll rules s) :=
  fun c hc hword => hs c (mem_of_mem_substituteAll_signs hrules hword hc) hword

theorem IsCommon.apply_wordRule (ht : IsCommon t) (c : Connective) :
    (wordRule c.word c.glyph).apply t = t := by
  apply Rule.apply_of_forall_not_same
  intro p hp d hd
  rw [← Bool.not_eq_true]
  intro hsame
  have halpha : p.isAlpha = true :=
    List.all_eq_true.1 c.isAlpha_word p (List.mem_of_mem_head? hp)
  have hfirst : ∀ c ∈ Connective.all, (c.word.toList.head?.all fun p =>
      !sameLetter p 'P' && !sameLetter p 'Q' && !sameLetter p 'v') = true := by
    decide +kernel
  have hhead : c.word.toList.head? = some p := hp
  have hall := hfirst c c.mem_all
  rw [hhead] at hall
  obtain ⟨⟨hP, hQ⟩, hv⟩ : (sameLetter p 'P' = false ∧ sameLetter p 'Q' = false) ∧
      sameLetter p 'v' = false := by
    simpa using hall
  rcases ht d hd (isWord_of_sameLetter halpha hsame) with rfl | rfl | rfl
  · exact Bool.false_ne_true (hP.symm.trans hsame)
  · exact Bool.false_ne_true (hQ.symm.trans hsame)
  · exact Bool.false_ne_true (hv.symm.trans hsame)

theorem IsCommon.apply_eitherCaseRule (ht : IsCommon t) :
    eitherCaseRule.apply t = letterRule.apply t := by
  rw [Rule.apply_of_spelling_singleton rfl rfl, Rule.apply_of_spelling_singleton rfl rfl]
  apply List.flatMap_congr
  intro c hc
  have hsame : eitherCaseRule.same 'v' c = letterRule.same 'v' c := by
    show sameLetter 'v' c = ('v' == c)
    cases hword : isWord c with
    | true => rcases ht c hc hword with rfl | rfl | rfl <;> decide +kernel
    | false =>
        have hletter : sameLetter 'v' c = false := by
          rw [← Bool.not_eq_true]
          intro h
          exact Bool.false_ne_true (hword.symm.trans (isWord_of_sameLetter (by decide) h))
        have hne : 'v' ≠ c := by
          rintro rfl
          exact absurd hword (by decide +kernel)
        rw [hletter, beq_false_of_ne hne]
  rw [hsame]
  rfl

theorem IsCommon.substituteAll_wordRules (ht : IsCommon t) :
    Text.substituteAll wordRules t = letterRule.apply t := by
  rw [substituteAll_wordRules_eq_apply ht.apply_wordRule, ht.apply_eitherCaseRule]

/-- An atom in the right case stays as it is. -/
theorem apply_atomRule_self {name : String} (hname : IsCapital name)
    (hs : ∀ c ∈ s, isWord c = true → c.isUpper = true) : (atomRule name).apply s = s := by
  have hwritten := hname.written_atomRule
  obtain ⟨p, hp, heq⟩ := hname
  have hspelling : (atomRule name).spelling = [p] := heq
  apply Rule.apply_of_written_eq
  intro u hu hreads
  obtain ⟨c, rfl, hsame⟩ := (Rule.reads_iff_of_spelling_singleton hspelling).1 hreads
  have halpha := isAlpha_of_isUpper hp
  have hupper : c.isUpper = true :=
    hs c ((List.singleton_infix_iff c s).1 hu) (isWord_of_sameLetter halpha hsame)
  have hlower := (sameLetter_iff_of_isAlpha halpha (isAlpha_of_isUpper hupper)).1 hsame
  rw [hwritten, heq, toLower_inj_of_isUpper hp hupper hlower]

end

namespace Alphabet

variable {s t n : List Char} {ts : List String}

theorem isCommon_canonical_builder (hs : IsCommon s) :
    ∀ c ∈ builder.canonical s, isWord c = true → c = 'P' ∨ c = 'Q' := by
  have hrules : ∀ r ∈ builder.rules, IsSignRule r := fun r hr => isSignRule_of_mem_rules rfl hr
  intro c hc hword
  -- the letter v is itself a spelling, of which the canonical text has none
  have hv : c ≠ 'v' := by
    rintro rfl
    have hrule : letterRule ∈ builder.rules := by simp [rules, builder]
    have hspelling : ¬ letterRule.spelling <:+: builder.canonical s :=
      not_infix_substituteAll hrules hrule s
    exact hspelling ((List.singleton_infix_iff 'v' _).2 hc)
  rcases hs.substituteAll hrules c hc hword with h | h | h
  · exact .inl h
  · exact .inr h
  · exact absurd h hv

theorem canonical_diagram_eq_builder (hs : IsCommon s) :
    diagram.canonical s = builder.canonical s := by
  have hplain : builder.canonical s = letterRule.apply (substituteAll symbolRules s) :=
    canonical_of_plain rfl s
  have hsigns : IsCommon (substituteAll symbolRules s) :=
    hs.substituteAll fun r hr => isSignRule_of_mem_symbolRules hr
  have hupper : ∀ c ∈ builder.canonical s, isWord c = true → c.isUpper = true := by
    intro c hc hword
    rcases isCommon_canonical_builder hs c hc hword with rfl | rfl <;> decide
  rw [canonical_of_words rfl, hsigns.substituteAll_wordRules, ← hplain]
  apply substituteAll_self
  intro r hr
  obtain ⟨name, hname, rfl⟩ := List.mem_map.1 hr
  exact apply_atomRule_self (isCapital_of_mem_diagram name hname) hupper

/-! ## Splitting and compiling -/

theorem leads_builder_of_leads_diagram (h : diagram.Leads t s)
    (hs : ∀ c ∈ t, isWord c = true → c = 'P' ∨ c = 'Q') : builder.Leads t s := by
  have hmem : ∀ name ∈ diagram.atoms, name ∈ builder.atoms := by decide
  cases h with
  | @atom before after name s hatoms hne hfirst =>
      have hname : name ∈ diagram.atoms := by
        rw [hatoms]
        simp
      exact leads_of_mem isCapital_of_mem_builder (hmem name hname) s
  | mark _ hc => exact leads_of_isMark isCapital_of_mem_builder hc s
  | @word c t s hatom _ hword _ =>
      -- a word would begin with one of the two atoms
      have hc : String.singleton c ∈ diagram.atoms := by
        rcases hs c (by simp) (hword c (by simp)) with rfl | rfl <;> decide
      refine absurd ?_ (hatom (String.singleton c) hc (by simp))
      simp
  | @other c s _ hmark hword hblank =>
      refine .other (noAtom_of_isUpper isCapital_of_mem_builder ?_ s) hmark hword hblank
      rw [← Bool.not_eq_true]
      intro hupper
      exact Bool.false_ne_true (hword.symm.trans (isWord_of_isAlpha (isAlpha_of_isUpper hupper)))

theorem Splits.builder_of_diagram (h : diagram.Splits n ts)
    (hn : ∀ c ∈ n, isWord c = true → c = 'P' ∨ c = 'Q') : builder.Splits n ts := by
  induction h with
  | nil => exact .nil
  | blank hc _ ih => exact .blank hc (ih fun d hd => hn d (by simp [hd]))
  | token ht _ ih =>
      exact .token (leads_builder_of_leads_diagram ht fun c hc => hn c (by simp [hc]))
        (ih fun c hc => hn c (by simp [hc]))

/-- The two further atoms of the larger alphabet are all that it adds. -/
theorem symbol_builder_eq_diagram {token : String}
    (h : ∀ c ∈ token.toList, isWord c = true → c = 'P' ∨ c = 'Q') :
    builder.symbol token = diagram.symbol token := by
  have hne : ∀ c : Char, isWord c = true → c ≠ 'P' → c ≠ 'Q' → token ≠ String.singleton c := by
    rintro c hword hP hQ rfl
    rcases h c (by simp) hword with hc | hc
    · exact hP hc
    · exact hQ hc
  have hatom : builder.isAtom token = diagram.isAtom token := by
    have hR : token ≠ "R" := hne 'R' (by decide +kernel) (by decide) (by decide)
    have hS : token ≠ "S" := hne 'S' (by decide +kernel) (by decide) (by decide)
    simp [isAtom, builder, diagram, hR, hS]
  rw [symbol, symbol, hatom]

theorem compileTokens_congr {a b : Alphabet} (h : ∀ token ∈ ts, a.symbol token = b.symbol token) :
    a.compileTokens ts = b.compileTokens ts := by
  unfold compileTokens
  rw [List.map_congr_left h]

theorem tokens_builder_eq_diagram {s : String} (hs : IsCommon s.toList) :
    builder.tokens (.text s) = diagram.tokens (.text s) ∧
      ∀ token ∈ diagram.tokens (.text s), builder.symbol token = diagram.symbol token := by
  have hdiagram := isSolid_of_mem isCapital_of_mem_diagram
  have hbuilder := isSolid_of_mem isCapital_of_mem_builder
  have hcommon := isCommon_canonical_builder hs
  rw [tokens_text hdiagram, tokens_text hbuilder, canonical_diagram_eq_builder hs]
  have hsplits := splits_split hdiagram (builder.canonical s.toList)
  refine ⟨(hsplits.builder_of_diagram hcommon).split_eq hbuilder, ?_⟩
  intro token htoken
  have hpart := (hsplits.exists_leads htoken).1
  exact symbol_builder_eq_diagram fun c hc => hcommon c (hpart.subset hc)

/-- On the texts that belong to both alphabets the two find the same tokens and compile the same
program, or fail in the same way, and the diagram agrees with the table of the larger alphabet. -/
theorem dialects_agree {s : String}
    (hs : ∀ c ∈ s.toList, isWord c = true → c = 'P' ∨ c = 'Q' ∨ c = 'v') :
    builder.tokens (.text s) = diagram.tokens (.text s) ∧
      builder.compile (.text s) = diagram.compile (.text s) ∧
      ∃ c, diagram.classify (.text s) = .ok c ∧
        c.AgreesWith "P" "Q" (builder.truthTable (.text s)) ∧
        ∀ p, (diagram.compile (.text s)).outcome = .ok p →
          c.error? = none ∧ (builder.truthTable (.text s)).error? = none := by
  obtain ⟨htokens, hsymbols⟩ := tokens_builder_eq_diagram hs
  have hcompileTokens : builder.compileTokens (diagram.tokens (.text s)) =
      diagram.compileTokens (diagram.tokens (.text s)) :=
    compileTokens_congr hsymbols
  have hcompile : builder.compile (.text s) = diagram.compile (.text s) := by
    rw [compile, htokens, hcompileTokens, compile]
  have htable : builder.truthTable (.text s) = diagram.truthTable (.text s) := by
    simp only [truthTable, htokens, hcompileTokens]
  refine ⟨htokens, hcompile, ?_⟩
  rw [htable]
  cases houtcome : (diagram.compile (.text s)).outcome with
  | ok p =>
      refine ⟨_, classify_of_outcome rfl houtcome,
        agreesWith_of_outcome rfl (by decide) houtcome, fun _ _ => ⟨rfl, ?_⟩⟩
      rw [truthTable_of_outcome houtcome]
  | error e =>
      refine ⟨_, classify_of_outcome_error rfl houtcome, agreesWith_of_outcome_error houtcome, ?_⟩
      intro p hp
      cases hp

/-- The letter v between atoms, signs and a conditional whose right operand is missing. -/
theorem dialects_agree_dangling :
    (∀ c ∈ "(QvP)^~P <=> Q ->".toList, isWord c = true → c = 'P' ∨ c = 'Q' ∨ c = 'v') ∧
      builder.tokens (.text "(QvP)^~P <=> Q ->") = diagram.tokens (.text "(QvP)^~P <=> Q ->") := by
  have hs : ∀ c ∈ "(QvP)^~P <=> Q ->".toList, isWord c = true → c = 'P' ∨ c = 'Q' ∨ c = 'v' := by
    have hall : "(QvP)^~P <=> Q ->".toList.all
        (fun c => !isWord c || c == 'P' || c == 'Q' || c == 'v') = true := by decide +kernel
    intro c hc hword
    simpa [hword, or_assoc] using List.all_eq_true.1 hall c hc
  exact ⟨hs, (dialects_agree hs).1⟩

end Alphabet

end Sentential
