import Sentential.Connective
import Sentential.Proofs.Text.Cut
import Sentential.Proofs.Text.Letter
import Sentential.Proofs.Text.Template
import Sentential.Spelling
/-!
# What becomes of the spellings in a text

Two neighbours belong together if they could stand next to each other in one spelling: two signs, or
two word characters where words are spellings.  A text that is cut elsewhere is rewritten part by
part, so the glyphs that come out depend on the single spellings only.
-/

namespace Sentential

open Text

/-- The atom is a single capital letter of the basic alphabet. -/
def IsCapital (name : String) : Prop := ∃ c : Char, c.isUpper = true ∧ name.toList = [c]

/-- The characters with which a spelling of several signs goes on. -/
def opensSign (c : Char) : Bool := c == '<' || c == '-' || c == '='

def closesSign (c : Char) : Bool := c == '-' || c == '=' || c == '>'

/-- The characters with which a spelling other than a word begins. -/
def beginsSign (c : Char) : Bool := c == '<' || c == '-' || c == '~' || c == '^'

/-- The characters of the spellings that are not words. -/
def signs : List Char := ['<', '-', '=', '>', '~', '^']

namespace Alphabet

/-- Two neighbours that could stand next to each other in one spelling. -/
def joined (a : Alphabet) (d e : Char) : Prop :=
  (a.wordSpellings = true ∧ isWord d = true ∧ isWord e = true) ∨
    (opensSign d = true ∧ closesSign e = true)

end Alphabet

theorem Connective.isWord_glyph (c : Connective) : isWord c.glyph = false := by
  rcases c with _ | (_ | _ | _ | _) <;> decide +kernel

theorem Connective.glyph_notMem_signs (c : Connective) : c.glyph ∉ signs := by
  rcases c with _ | (_ | _ | _ | _) <;> decide

section

variable {c : Char}

theorem notMem_signs_of_isWord (h : isWord c = true) : c ∉ signs := by
  have hsigns : signs.all (!isWord ·) = true := by decide +kernel
  intro hc
  simpa [h] using List.all_eq_true.1 hsigns c hc

theorem notMem_signs_of_isAlpha (h : c.isAlpha = true) : c ∉ signs :=
  notMem_signs_of_isWord (isWord_of_isAlpha h)

theorem opensSign_of_notMem (h : c ∉ signs) : opensSign c = false := by
  simp only [signs, List.mem_cons, not_or] at h
  simp [opensSign, h]

theorem closesSign_of_notMem (h : c ∉ signs) : closesSign c = false := by
  simp only [signs, List.mem_cons, not_or] at h
  simp [closesSign, h]

theorem beginsSign_of_notMem (h : c ∉ signs) : beginsSign c = false := by
  simp only [signs, List.mem_cons, not_or] at h
  simp [beginsSign, h]

end

/-! ## The two kinds of rules -/

/-- A sign stands for a glyph wherever it occurs. -/
structure IsSignRule (r : Rule) : Prop extends r.Exact where
  chain : r.spelling.IsChain fun d e => opensSign d = true ∧ closesSign e = true
  glyph : ∃ c : Connective, r.replacement = .literal [c.glyph]
  noGlyph : ∀ c : Connective, c.glyph ∉ r.spelling

/-- A spelling that consists of letters, in any case, stands for a glyph or for letters. -/
structure IsLetterRule (r : Rule) : Prop where
  anyCase : r.anyCase = true
  spelling_ne_nil : r.spelling ≠ []
  letters : ∀ p ∈ r.spelling, p.isAlpha = true
  literal : ∃ s ≠ [], r.replacement = .literal s ∧
    ∀ g ∈ s, g.isAlpha = true ∨ ∃ c : Connective, g = c.glyph

theorem isSignRule_of_glyph {spelling : List Char} (c : Connective) (hne : spelling ≠ [])
    (hchain : spelling.IsChain fun d e => opensSign d = true ∧ closesSign e = true)
    (hglyphs : ∀ c ∈ Connective.all, c.glyph ∉ spelling) :
    IsSignRule { spelling := spelling, replacement := .literal [c.glyph] } where
  anyCase := rfl
  wholeWord := rfl
  spelling_ne_nil := hne
  chain := hchain
  glyph := ⟨c, rfl⟩
  noGlyph := fun c => hglyphs c c.mem_all

theorem isSignRule_of_mem_symbolRules {r : Rule} (h : r ∈ symbolRules) : IsSignRule r := by
  simp only [symbolRules, List.mem_cons, List.not_mem_nil, or_false] at h
  rcases h with rfl | rfl | rfl | rfl | rfl
  · exact isSignRule_of_glyph (.binary .iff) (by decide) (by decide) (by decide)
  · exact isSignRule_of_glyph (.binary .iff) (by decide) (by decide) (by decide)
  · exact isSignRule_of_glyph (.binary .implies) (by decide) (by decide) (by decide)
  · exact isSignRule_of_glyph .not (by decide) (by decide) (by decide)
  · exact isSignRule_of_glyph (.binary .and) (by decide) (by decide) (by decide)

theorem isSignRule_letterRule : IsSignRule letterRule :=
  isSignRule_of_glyph (.binary .or) (by decide) (by decide) (by decide)

theorem isLetterRule_wordRule {word : String} (c : Connective) (hne : word.toList ≠ [])
    (hletters : word.toList.all Char.isAlpha = true) : IsLetterRule (wordRule word c.glyph) where
  anyCase := rfl
  spelling_ne_nil := hne
  letters := List.all_eq_true.1 hletters
  literal := ⟨[c.glyph], List.cons_ne_nil _ _, rfl, fun _ hg => .inr ⟨c, List.mem_singleton.1 hg⟩⟩

theorem isLetterRule_of_mem_wordRules {r : Rule} (h : r ∈ wordRules) : IsLetterRule r := by
  simp only [wordRules, List.mem_cons, List.not_mem_nil, or_false] at h
  rcases h with rfl | rfl | rfl | rfl | rfl | rfl
  · exact isLetterRule_wordRule (.binary .iff) (by decide) (by decide)
  · exact isLetterRule_wordRule (.binary .implies) (by decide) (by decide)
  · exact isLetterRule_wordRule .not (by decide) (by decide)
  · exact isLetterRule_wordRule (.binary .and) (by decide) (by decide)
  · exact isLetterRule_wordRule (.binary .or) (by decide) (by decide)
  · exact {
      anyCase := rfl
      spelling_ne_nil := List.cons_ne_nil _ _
      letters := List.forall_mem_singleton.2 rfl
      literal := ⟨['∨'], List.cons_ne_nil _ _, rfl,
        fun _ hg => .inr ⟨.binary .or, List.mem_singleton.1 hg⟩⟩ }

/-- An atom without backslashes is written as the alphabet writes it. -/
theorem atomTemplate_of_notMem {name : String} (h : '\\' ∉ name.toList) :
    atomTemplate name = .literal name.toList := by
  rw [atomTemplate, Template.read_of_notMem h]

theorem pieces_atomTemplate_ne_nil {name : String} (hne : name.toList ≠ []) :
    (atomTemplate name).pieces ≠ [] := by
  unfold atomTemplate
  split
  case h_1 t hread => exact Template.pieces_ne_nil_of_read hne hread
  case h_2 => simpa [Template.literal] using hne

theorem IsCapital.backslash_notMem {name : String} (h : IsCapital name) : '\\' ∉ name.toList := by
  obtain ⟨c, hc, hname⟩ := h
  rw [hname, List.mem_singleton]
  rintro rfl
  cases hc

theorem IsCapital.written_atomRule {name : String} (h : IsCapital name) (u : List Char) :
    (atomRule name).written u = name.toList :=
  Rule.written_of_literal (atomTemplate_of_notMem h.backslash_notMem) u

theorem isLetterRule_atomRule {name : String} (h : IsCapital name) :
    IsLetterRule (atomRule name) := by
  have hplain := h.backslash_notMem
  obtain ⟨c, hc, hname⟩ := h
  have halpha : ∀ p ∈ name.toList, p.isAlpha = true := by
    intro p hp
    rw [hname, List.mem_singleton] at hp
    exact hp ▸ isAlpha_of_isUpper hc
  have hne : name.toList ≠ [] := by
    rw [hname]
    exact List.cons_ne_nil c []
  exact ⟨rfl, hne, halpha, name.toList, hne, atomTemplate_of_notMem hplain,
    fun g hg => .inl (halpha g hg)⟩

theorem IsLetterRule.written_ne_nil {r : Rule} (h : IsLetterRule r) (u : List Char) :
    r.written u ≠ [] := by
  obtain ⟨s, hne, hliteral, _⟩ := h.literal
  rwa [Rule.written_of_literal hliteral]

theorem IsLetterRule.of_mem_written {r : Rule} (h : IsLetterRule r) {u : List Char} {g : Char}
    (hg : g ∈ r.written u) : g.isAlpha = true ∨ ∃ c : Connective, g = c.glyph := by
  obtain ⟨s, _, hliteral, hs⟩ := h.literal
  rw [Rule.written_of_literal hliteral] at hg
  exact hs g hg

theorem IsLetterRule.isWord_of_reads {r : Rule} {s : List Char} (h : IsLetterRule r)
    (hreads : r.Reads s) : ∀ c ∈ s, isWord c = true := by
  intro c hc
  obtain ⟨p, hp, hsame⟩ := hreads.exists_same hc
  rw [Rule.same, h.anyCase, if_pos rfl] at hsame
  exact isWord_of_sameLetter (h.letters p hp) hsame

namespace Alphabet

variable {a : Alphabet} {r : Rule} {s t : List Char}

theorem not_joined_glyph_left (a : Alphabet) (c : Connective) (e : Char) :
    ¬ a.joined c.glyph e := by
  simp [joined, c.isWord_glyph, opensSign_of_notMem c.glyph_notMem_signs]

theorem not_joined_glyph_right (a : Alphabet) (c : Connective) (d : Char) :
    ¬ a.joined d c.glyph := by
  simp [joined, c.isWord_glyph, closesSign_of_notMem c.glyph_notMem_signs]

/-- A text is cut before and after a glyph. -/
theorem apart_glyph_right (a : Alphabet) (c : Connective) (s : List Char) :
    Apart a.joined s [c.glyph] := by
  intro d _ e he
  cases he
  exact a.not_joined_glyph_right c d

theorem apart_glyph_left (a : Alphabet) (c : Connective) (t : List Char) :
    Apart a.joined [c.glyph] t := by
  intro d hd e _
  cases hd
  exact a.not_joined_glyph_left c e

theorem within_of_isSignRule (a : Alphabet) (h : IsSignRule r) : r.Within a.joined := by
  obtain ⟨c, hglyph⟩ := h.glyph
  constructor
  case chain =>
    intro u hreads
    rw [h.reads_iff.1 hreads]
    exact h.chain.imp fun d e hde => .inr hde
  case outside_left =>
    intro hword
    rw [h.wholeWord] at hword
    cases hword
  case outside_right =>
    intro hword
    rw [h.wholeWord] at hword
    cases hword
  case written_ne_nil =>
    intro u _
    rw [Rule.written_of_literal hglyph]
    exact List.cons_ne_nil _ _
  case apart_left =>
    intro u _ s _
    rw [Rule.written_of_literal hglyph]
    exact a.apart_glyph_right c s
  case apart_right =>
    intro u _ t _
    rw [Rule.written_of_literal hglyph]
    exact a.apart_glyph_left c t

theorem isWord_left_of_not_joined (hwords : a.wordSpellings = true) {d e : Char}
    (he : isWord e = true) (h : ¬ a.joined d e) : isWord d = false := by
  rw [← Bool.not_eq_true]
  exact fun hd => h (.inl ⟨hwords, hd, he⟩)

theorem isWord_right_of_not_joined (hwords : a.wordSpellings = true) {d e : Char}
    (hd : isWord d = true) (h : ¬ a.joined d e) : isWord e = false := by
  rw [← Bool.not_eq_true]
  exact fun he => h (.inl ⟨hwords, hd, he⟩)

theorem not_joined_written_right (h : IsLetterRule r) {u : List Char} {d g : Char}
    (hg : g ∈ r.written u) (hd : isWord d = false) : ¬ a.joined d g := by
  rcases h.of_mem_written hg with halpha | ⟨c, rfl⟩
  · simp [joined, hd, closesSign_of_notMem (notMem_signs_of_isAlpha halpha)]
  · exact a.not_joined_glyph_right c d

theorem not_joined_written_left (h : IsLetterRule r) {u : List Char} {e g : Char}
    (hg : g ∈ r.written u) (he : isWord e = false) : ¬ a.joined g e := by
  rcases h.of_mem_written hg with halpha | ⟨c, rfl⟩
  · simp [joined, he, opensSign_of_notMem (notMem_signs_of_isAlpha halpha)]
  · exact a.not_joined_glyph_left c e

theorem within_of_isLetterRule (hwords : a.wordSpellings = true) (h : IsLetterRule r) :
    r.Within a.joined := by
  have hword : ∀ u, r.Reads u → ∀ c ∈ u, isWord c = true := fun u hu => h.isWord_of_reads hu
  have hne : ∀ u, r.Reads u → u ≠ [] := fun u hu => hu.ne_nil h.spelling_ne_nil
  constructor
  case chain =>
    intro u hreads
    have hpairwise : u.Pairwise a.joined := List.pairwise_of_forall_mem_list fun d hd e he =>
      .inl ⟨hwords, hword u hreads d hd, hword u hreads e he⟩
    exact hpairwise.isChain
  case outside_left =>
    intro _ u hreads e he d hd
    exact isWord_left_of_not_joined hwords (hword u hreads e (List.mem_of_mem_head? he)) hd
  case outside_right =>
    intro _ u hreads d hd e he
    exact isWord_right_of_not_joined hwords (hword u hreads d (List.mem_of_mem_getLast? hd)) he
  case written_ne_nil => exact fun u _ => h.written_ne_nil u
  case apart_left =>
    intro u hreads s hcut d hd g hg
    have hfirst := List.head?_eq_some_head (hne u hreads)
    have hdword := isWord_left_of_not_joined hwords
      (hword u hreads _ (List.mem_of_mem_head? hfirst)) (hcut d hd _ hfirst)
    exact not_joined_written_right h (List.mem_of_mem_head? hg) hdword
  case apart_right =>
    intro u hreads t hcut g hg e he
    have hlast := List.getLast?_eq_some_getLast (hne u hreads)
    have heword := isWord_right_of_not_joined hwords
      (hword u hreads _ (List.mem_of_mem_getLast? hlast)) (hcut _ hlast e he)
    exact not_joined_written_left h (List.mem_of_mem_getLast? hg) heword

/-! ## Rewriting a text part by part -/

/-- Where words are spellings, the atoms are capital letters. -/
def HasLetters (a : Alphabet) : Prop :=
  a.wordSpellings = true → ∀ name ∈ a.atoms, IsCapital name

theorem within_of_mem_rules (ha : a.HasLetters) (hr : r ∈ a.rules) : r.Within a.joined := by
  unfold rules at hr
  rcases List.mem_append.1 hr with hr | hr
  · exact a.within_of_isSignRule (isSignRule_of_mem_symbolRules hr)
  · cases hwords : a.wordSpellings with
    | false =>
        rw [hwords, if_neg Bool.false_ne_true, List.mem_singleton] at hr
        exact a.within_of_isSignRule (hr ▸ isSignRule_letterRule)
    | true =>
        rw [hwords, if_pos rfl] at hr
        rcases List.mem_append.1 hr with hr | hr
        · exact within_of_isLetterRule hwords (isLetterRule_of_mem_wordRules hr)
        · obtain ⟨name, hname, rfl⟩ := List.mem_map.1 hr
          exact within_of_isLetterRule hwords (isLetterRule_atomRule (ha hwords name hname))

@[simp] theorem canonical_nil (a : Alphabet) : a.canonical [] = [] :=
  substituteAll_self fun r _ => r.apply_nil

theorem canonical_append (ha : a.HasLetters) (hcut : Apart a.joined s t) :
    a.canonical (s ++ t) = a.canonical s ++ a.canonical t :=
  substituteAll_append (fun _ hr => within_of_mem_rules ha hr) hcut

end Alphabet

/-! ## Texts in which nothing is spelled -/

theorem apply_symbolRule_self {r : Rule} {s : List Char} (hr : r ∈ symbolRules)
    (h : ∀ c ∈ s, beginsSign c = false) : r.apply s = s := by
  have hfirst : ∀ r ∈ symbolRules, r.spelling.head?.all beginsSign = true := by decide
  apply Rule.apply_of_forall_not_same
  intro p hp c hc
  have hne : p ≠ c := by
    rintro rfl
    have hsign : beginsSign p = true := Option.all_eq_true _ _ |>.1 (hfirst r hr) p hp
    exact Bool.false_ne_true ((h p hc).symm.trans hsign)
  rw [Rule.same, (isSignRule_of_mem_symbolRules hr).anyCase]
  simpa using hne

theorem substituteAll_symbolRules_self {s : List Char} (h : ∀ c ∈ s, beginsSign c = false) :
    substituteAll symbolRules s = s :=
  substituteAll_self fun _ hr => apply_symbolRule_self hr h

theorem substituteAll_symbolRules_word {s : List Char} (h : ∀ c ∈ s, isWord c = true) :
    substituteAll symbolRules s = s :=
  substituteAll_symbolRules_self fun c hc =>
    beginsSign_of_notMem (notMem_signs_of_isWord (h c hc))

theorem apply_letterRule_self {s : List Char} (h : 'v' ∉ s) : letterRule.apply s = s := by
  apply Rule.apply_of_forall_not_same
  intro p hp c hc
  cases hp
  have hne : 'v' ≠ c := by
    rintro rfl
    exact h hc
  simpa [Rule.same, letterRule] using hne

theorem IsLetterRule.apply_self {r : Rule} {s : List Char} (h : IsLetterRule r)
    (hs : ∀ c ∈ s, isWord c = false) : r.apply s = s := by
  apply Rule.apply_of_forall_not_same
  intro p hp c hc
  rw [← Bool.not_eq_true, Rule.same, h.anyCase, if_pos rfl]
  intro hsame
  have hword := isWord_of_sameLetter (h.letters p (List.mem_of_mem_head? hp)) hsame
  exact Bool.false_ne_true ((hs c hc).symm.trans hword)

/-- Rewriting signs makes no text in which there is no glyph. -/
theorem infix_of_substituteAll_signs {rules : List Rule} (hrules : ∀ r ∈ rules, IsSignRule r)
    {s u : List Char} (hu : ∀ c : Connective, c.glyph ∉ u) (h : u <:+: substituteAll rules s) :
    u <:+: s := by
  refine infix_of_substituteAll (fun r hr => ?_) h
  obtain ⟨c, hglyph⟩ := (hrules r hr).glyph
  exact ⟨c.glyph, hglyph, hu c⟩

/-- Rewriting signs brings no word character into a text. -/
theorem mem_of_mem_substituteAll_signs {rules : List Rule} (hrules : ∀ r ∈ rules, IsSignRule r)
    {s : List Char} {c : Char} (hword : isWord c = true) (h : c ∈ substituteAll rules s) :
    c ∈ s := by
  rw [← List.singleton_infix_iff] at h ⊢
  refine infix_of_substituteAll_signs hrules (fun d hd => ?_) h
  rw [← List.mem_singleton.1 hd, d.isWord_glyph] at hword
  cases hword

/-- Nothing is left of a sign once all have been rewritten. -/
theorem not_infix_substituteAll {rules : List Rule} (hrules : ∀ r ∈ rules, IsSignRule r) {r : Rule}
    (hr : r ∈ rules) (s : List Char) : ¬ r.spelling <:+: substituteAll rules s := by
  induction rules generalizing s with
  | nil => cases hr
  | cons q rules ih =>
      have hrest : ∀ p ∈ rules, IsSignRule p := fun p hp => hrules p (by simp [hp])
      show ¬ r.spelling <:+: substituteAll rules (q.apply s)
      rcases List.mem_cons.1 hr with rfl | hr
      · have hsign := hrules r (by simp)
        obtain ⟨c, hglyph⟩ := hsign.glyph
        intro h
        have hstep := infix_of_substituteAll_signs hrest hsign.noGlyph h
        exact hsign.not_infix_of_rewrites hglyph (hsign.noGlyph c) (r.rewrites_apply s) hstep
      · exact ih hrest hr (q.apply s)

namespace Alphabet

variable {a : Alphabet} {s : List Char}

theorem canonical_of_plain (hwords : a.wordSpellings = false) (s : List Char) :
    a.canonical s = letterRule.apply (substituteAll symbolRules s) := by
  unfold canonical rules
  rw [hwords, if_neg Bool.false_ne_true, substituteAll_append_rules]
  rfl

theorem isSignRule_of_mem_rules (hwords : a.wordSpellings = false) {r : Rule} (hr : r ∈ a.rules) :
    IsSignRule r := by
  unfold rules at hr
  rw [hwords, if_neg Bool.false_ne_true] at hr
  rcases List.mem_append.1 hr with hr | hr
  · exact isSignRule_of_mem_symbolRules hr
  · exact List.mem_singleton.1 hr ▸ isSignRule_letterRule

/-- Without word spellings nothing is left to rewrite, nor in any part of the text. -/
theorem canonical_of_isInfix (hwords : a.wordSpellings = false) {t : List Char}
    (h : t <:+: a.canonical s) : a.canonical t = t := by
  have hrules : ∀ r ∈ a.rules, IsSignRule r := fun r hr => isSignRule_of_mem_rules hwords hr
  apply substituteAll_self
  intro r hr
  apply (hrules r hr).apply_of_not_isInfix
  exact fun hspelling => not_infix_substituteAll hrules hr s (hspelling.trans h)

theorem canonical_of_words (hwords : a.wordSpellings = true) (s : List Char) :
    a.canonical s = substituteAll (a.atoms.map atomRule)
      (substituteAll wordRules (substituteAll symbolRules s)) := by
  unfold canonical rules
  rw [hwords, if_pos rfl, substituteAll_append_rules, substituteAll_append_rules]

/-- Glyphs, parentheses and blanks are kept. -/
theorem canonical_self (ha : a.HasLetters)
    (h : ∀ c ∈ s, beginsSign c = false ∧ isWord c = false) : a.canonical s = s := by
  have hsigns : ∀ c ∈ s, beginsSign c = false := fun c hc => (h c hc).1
  have hword : ∀ c ∈ s, isWord c = false := fun c hc => (h c hc).2
  cases hwords : a.wordSpellings with
  | false =>
      rw [canonical_of_plain hwords, substituteAll_symbolRules_self hsigns]
      apply apply_letterRule_self
      intro hv
      exact absurd (hword 'v' hv) (by decide +kernel)
  | true =>
      rw [canonical_of_words hwords, substituteAll_symbolRules_self hsigns,
        substituteAll_self fun r hr => (isLetterRule_of_mem_wordRules hr).apply_self hword]
      apply substituteAll_self
      intro r hr
      obtain ⟨name, hname, rfl⟩ := List.mem_map.1 hr
      exact (isLetterRule_atomRule (ha hwords name hname)).apply_self hword

theorem canonical_singleton (ha : a.HasLetters) {c : Char} (hsign : beginsSign c = false)
    (hword : isWord c = false) : a.canonical [c] = [c] :=
  canonical_self ha (List.forall_mem_singleton.2 ⟨hsign, hword⟩)

end Alphabet

end Sentential
