import Sentential.Proofs.Scan
import Sentential.Proofs.Text.Run
import Sentential.Proofs.Writing.Words
/-!
# Rewriting run by run

Where words are spellings, a text is rewritten in many passes, and some of them make or remove the
word boundaries that others ask for.  Yet every run of word characters, and every run of others, is
rewritten on its own: the signs by one scan; a word that stands for a connective as a whole; and of
any other word the letters v and what stands between them.
-/

namespace Sentential

open Text

/-- What becomes of a piece of a word: the atoms of two-set diagrams are written as capitals. -/
def capitalized : List Char → List Char
  | ['p'] => ['P']
  | ['q'] => ['Q']
  | t => t

/-- What becomes of a word.  Only a whole word can stand for a connective, and only pieces between
the letters v, or all of a word without them, can be atoms. -/
def rewrittenWord (t : List Char) : List Char :=
  match Connective.all.find? (fun c => folded c.word.toList == folded t) with
  | some c => [c.glyph]
  | none => ['∨'].intercalate ((t.splitOnP fun c => c == 'v' || c == 'V').map capitalized)

/-- What becomes of a run of word characters or of others. -/
def rewrittenRun (t : List Char) : List Char :=
  if t.any isWord then rewrittenWord t else scanned [('~', '¬'), ('^', '∧')] t

/-! ## Cutting a text into runs -/

namespace Alphabet

variable {a : Alphabet} {s t : List Char}

theorem not_joined_of_isWord_ne {d e : Char} (h : isWord d ≠ isWord e) : ¬ a.joined d e := by
  rintro (⟨_, hd, he⟩ | ⟨hd, he⟩)
  · exact h (hd.trans he.symm)
  · have hsigns : ∀ c, isWord c = true → opensSign c = false ∧ closesSign c = false := fun c hc =>
      ⟨opensSign_of_notMem (notMem_signs_of_isWord hc),
        closesSign_of_notMem (notMem_signs_of_isWord hc)⟩
    cases hdword : isWord d with
    | true => exact Bool.false_ne_true ((hsigns d hdword).1.symm.trans hd)
    | false =>
        have heword : isWord e = true := by simpa [hdword] using h
        exact Bool.false_ne_true ((hsigns e heword).2.symm.trans he)

/-- A text that is cut where characters do not belong together is rewritten part by part. -/
theorem canonical_flatten (ha : a.HasLetters) {ts : List (List Char)} (hne : [] ∉ ts)
    (hcuts : ts.IsChain (Apart a.joined)) : a.canonical ts.flatten = ts.flatMap a.canonical := by
  induction ts with
  | nil => exact a.canonical_nil
  | cons t ts ih =>
      rw [List.mem_cons, not_or] at hne
      have hrest := (List.isChain_cons.1 hcuts).2
      rw [List.flatten_cons, List.flatMap_cons, ← ih hne.2 hrest]
      apply canonical_append ha
      cases ts with
      | nil => simp [Apart]
      | cons u ts =>
          have hu : u ≠ [] := fun h => hne.2 (by simp [h])
          rw [List.flatten_cons, apart_append_right hu]
          exact (List.isChain_cons.1 hcuts).1 u rfl

/-- Each run is rewritten on its own. -/
theorem canonical_eq_flatMap_runs (ha : a.HasLetters) (s : List Char) :
    a.canonical s = (runs s).flatMap a.canonical := by
  have hcuts : (runs s).IsChain (Apart a.joined) :=
    (isChain_runs s).imp fun _ _ hends d hd e he => not_joined_of_isWord_ne (hends d hd e he)
  rw [← canonical_flatten ha (nil_notMem_runs s) hcuts, flatten_runs]

/-! ## Runs of other characters -/

theorem canonical_of_not_word_run (hwords : a.wordSpellings = true)
    (ha : ∀ name ∈ a.atoms, IsCapital name) (ht : ∀ c ∈ t, isWord c = false) :
    a.canonical t = scanned [('~', '¬'), ('^', '∧')] t := by
  have hsigns : ∀ r ∈ symbolRules, IsSignRule r := fun r hr => isSignRule_of_mem_symbolRules hr
  -- the passes for signs bring in no word character, so the rules for words find nothing
  have hkept : ∀ c ∈ substituteAll symbolRules t, isWord c = false := by
    intro c hc
    rw [← Bool.not_eq_true]
    intro hword
    have hold := ht c (mem_of_mem_substituteAll_signs hsigns hword hc)
    exact Bool.false_ne_true (hold.symm.trans hword)
  have horderly := orderly_symbolRules
  rw [canonical_of_words hwords, substituteAll_atomRules_of_not_word ha,
    substituteAll_self fun r hr => (isLetterRule_of_mem_wordRules hr).apply_self hkept]
  · rw [symbolRules_eq] at horderly ⊢
    exact substituteAll_eq_scanned horderly t
  · rwa [substituteAll_self fun r hr => (isLetterRule_of_mem_wordRules hr).apply_self hkept]

/-! ## Words -/

theorem eitherCaseRule_same (c : Char) :
    eitherCaseRule.same 'v' c = (c == 'v' || c == 'V') := by
  have hsame := sameLetter_iff_of_plain (p := 'v') (c := c) (by decide) (by decide)
  show sameLetter 'v' c = _
  rw [Bool.eq_iff_iff, hsame]
  simp

/-- A word that stands for no connective falls into pieces at the letters v. -/
theorem substituteAll_wordRules_eq_intercalate (ht : ∀ c ∈ t, isWord c = true)
    (hnone : ∀ c : Connective, ¬ (wordRule c.word c.glyph).Reads t) :
    substituteAll wordRules t =
      ['∨'].intercalate (t.splitOnP fun c => c == 'v' || c == 'V') := by
  rw [substituteAll_wordRules_eq_apply fun c => Rule.apply_of_not_reads_word rfl ht (hnone c),
    Rule.apply_of_spelling_singleton rfl rfl, ← flatMap_eq_intercalate_splitOnP]
  simp only [eitherCaseRule_same]
  rfl

/-- The rules for atoms rewrite each piece between glyphs on its own. -/
theorem substituteAll_atomRules_intercalate (hwords : a.wordSpellings = true)
    (ha : ∀ name ∈ a.atoms, IsCapital name) (c : Connective) (ts : List (List Char)) :
    substituteAll (a.atoms.map atomRule) ([c.glyph].intercalate ts) =
      [c.glyph].intercalate (ts.map (substituteAll (a.atoms.map atomRule))) := by
  have hwithin : ∀ r ∈ a.atoms.map atomRule, r.Within a.joined := by
    intro r hr
    obtain ⟨name, hname, rfl⟩ := List.mem_map.1 hr
    exact within_of_isLetterRule hwords (isLetterRule_atomRule (ha name hname))
  have hglyph : substituteAll (a.atoms.map atomRule) [c.glyph] = [c.glyph] :=
    substituteAll_atomRules_of_not_word ha (by simp [c.isWord_glyph])
  have hsplit : ∀ s t, substituteAll (a.atoms.map atomRule) (s ++ [c.glyph] ++ t) =
      substituteAll (a.atoms.map atomRule) s ++ [c.glyph] ++
        substituteAll (a.atoms.map atomRule) t := by
    intro s t
    have hcut : Apart a.joined (s ++ [c.glyph]) t :=
      (apart_append_left (by simp)).2 (a.apart_glyph_left c t)
    rw [substituteAll_append hwithin hcut,
      substituteAll_append hwithin (a.apart_glyph_right c s), hglyph]
  induction ts with
  | nil => exact substituteAll_self fun r _ => r.apply_nil
  | cons t ts ih =>
      cases ts with
      | nil => simp
      | cons u ts =>
          rw [List.intercalate_cons_of_ne_nil (by simp), hsplit, ih, List.map_cons (a := t),
            List.intercalate_cons_of_ne_nil (by simp)]

/-- A word is an atom of two-set diagrams up to case if it is one of four letters. -/
theorem substituteAll_atomRules_diagram (ht : ∀ c ∈ t, isWord c = true) :
    substituteAll (diagram.atoms.map atomRule) t = capitalized t := by
  have hatoms : ∀ name ∈ diagram.atoms, IsCapital name := isCapital_of_mem_diagram
  have hP : folded "P".toList = folded t ↔ t = ['p'] ∨ t = ['P'] :=
    folded_singleton_eq_iff (by decide) (by decide)
  have hQ : folded "Q".toList = folded t ↔ t = ['q'] ∨ t = ['Q'] :=
    folded_singleton_eq_iff (by decide) (by decide)
  by_cases hp : folded "P".toList = folded t
  · rw [substituteAll_atomRules_of_folded hatoms (by decide) hp]
    rcases hP.1 hp with rfl | rfl <;> rfl
  · by_cases hq : folded "Q".toList = folded t
    · rw [substituteAll_atomRules_of_folded hatoms (by decide) hq]
      rcases hQ.1 hq with rfl | rfl <;> rfl
    · rw [substituteAll_atomRules_self hatoms ht]
      · rw [hP, not_or] at hp
        rw [hQ, not_or] at hq
        simp [capitalized, hp.1, hq.1]
      · simpa [diagram] using And.intro hp hq

theorem canonical_of_word_run (ht : ∀ c ∈ t, isWord c = true) :
    diagram.canonical t = rewrittenWord t := by
  have hatoms : ∀ name ∈ diagram.atoms, IsCapital name := isCapital_of_mem_diagram
  have hsigns : substituteAll symbolRules t = t := substituteAll_symbolRules_word ht
  have hreads : ∀ c : Connective, (wordRule c.word c.glyph).Reads t ↔
      folded c.word.toList = folded t := fun c => reads_iff_folded (isLetterRule_wordRule_word c)
  unfold rewrittenWord
  cases hfind : Connective.all.find? fun c => folded c.word.toList == folded t with
  | some c =>
      have hfound : folded c.word.toList = folded t := by simpa using List.find?_some hfind
      have hword : (wordRule c.word c.glyph).Reads t := (hreads c).2 hfound
      apply canonical_of_wordRules_glyph rfl hatoms
      rw [hsigns, substituteAll_wordRules_of_reads hword]
  | none =>
      have hnone : ∀ c : Connective, ¬ (wordRule c.word c.glyph).Reads t := by
        intro c hc
        have hne := List.find?_eq_none.1 hfind c c.mem_all
        exact hne (beq_iff_eq.2 ((hreads c).1 hc))
      rw [canonical_of_words rfl, hsigns, substituteAll_wordRules_eq_intercalate ht hnone]
      refine (substituteAll_atomRules_intercalate rfl hatoms (.binary .or) _).trans ?_
      congr 1
      apply List.map_congr_left
      intro piece hpiece
      exact substituteAll_atomRules_diagram fun c hc => ht c (mem_of_mem_splitOnP hpiece c hc)

theorem canonical_of_mem_runs (ht : t ∈ runs s) : diagram.canonical t = rewrittenRun t := by
  unfold rewrittenRun
  rcases isWord_or_not_of_mem_runs ht with hword | hother
  · have hne : t ≠ [] := by
      rintro rfl
      exact nil_notMem_runs s ht
    have hany : t.any isWord = true :=
      List.any_eq_true.2 ⟨t.head hne, List.head_mem hne, hword _ (List.head_mem hne)⟩
    rw [if_pos hany, canonical_of_word_run hword]
  · have hnone : ¬ t.any isWord = true := by simpa using hother
    rw [if_neg hnone, canonical_of_not_word_run rfl isCapital_of_mem_diagram hother]

/-- Where words are spellings, a text is rewritten run by run. -/
theorem canonicalText_eq_flatMap_runs (s : String) :
    diagram.canonicalText s = String.ofList ((runs s.toList).flatMap rewrittenRun) := by
  have hletters : diagram.HasLetters := fun _ => isCapital_of_mem_diagram
  rw [canonicalText, canonical_eq_flatMap_runs hletters]
  congr 1
  exact List.flatMap_congr fun t ht => canonical_of_mem_runs ht

/-- A piece of a word that spells a connective is kept. -/
example :
    (runs "~Iff<=>pVandvq_".toList).flatMap rewrittenRun = "¬↔↔P∨and∨q_".toList := by
  decide +kernel

end Alphabet

end Sentential
