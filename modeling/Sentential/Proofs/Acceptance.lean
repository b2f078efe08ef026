import Sentential.Proofs.Compiler.Outcome
import Sentential.Proofs.Writing
/-!
# Which texts compile

A canonical text compiles if all its characters belong to formulas and its parentheses are balanced.
Otherwise the first character that does not fit decides what is wrong.  The characters before it are
tokens one by one, so the splitter stands right at it: if it is foreign it begins the unknown token,
and what comes after it does not matter to any token before.
-/

namespace Sentential

open Text

/-- No parenthesis closes a group that is not open, and no group is left open. -/
structure Balanced (s : List Char) : Prop where
  closing_le : ∀ u, u <+: s → u.count ')' ≤ u.count '('
  settled : s.count ')' = s.count '('

namespace Alphabet

/-- The characters of formulas, if every atom is a single letter. -/
def characters (a : Alphabet) : List Char :=
  a.atoms.flatMap String.toList ++ ['(', ')'] ++ Connective.all.map Connective.glyph

example : builder.characters = "PQRS()¬∧∨→↔".toList := by decide

/-- A character after a text does not fit: it is foreign to formulas, or it closes a group and none
is open. -/
def IsMisfit (a : Alphabet) (before : List Char) (c : Char) : Prop :=
  (isBlank c = false ∧ c ∉ a.characters) ∨ (c = ')' ∧ before.count '(' ≤ before.count ')')

/-- Every character of a text fits. -/
def Fits (a : Alphabet) (s : List Char) : Prop := ∀ u c, u ++ [c] <+: s → ¬ a.IsMisfit u c

/-- The unknown token that a foreign character begins: the longest run of word characters from there
on, or the character alone. -/
def foreignToken (c : Char) (rest : List Char) : List Char :=
  if isWord c then (c :: rest).takeWhile isWord else [c]

/-- What is wrong with a text: the first character that does not fit is foreign and begins an
unknown token, or it closes a group that is not open; or all characters fit and a group is left
open. -/
inductive Rejects (a : Alphabet) : List Char → CompileError → Prop
  | foreign {before rest : List Char} {c : Char} (hbefore : a.Fits before)
      (hblank : isBlank c = false) (hc : c ∉ a.characters) :
      Rejects a (before ++ c :: rest) (.unknownToken (String.ofList (foreignToken c rest)))
  | unopened {before rest : List Char} (hbefore : a.Fits before)
      (hopen : before.count '(' ≤ before.count ')') :
      Rejects a (before ++ ')' :: rest) .mismatchedParentheses
  | unclosed {s : List Char} (hs : a.Fits s) (hopen : s.count ')' < s.count '(') :
      Rejects a s .mismatchedParentheses

variable {a : Alphabet} {s t u : List Char} {c : Char}

theorem mem_characters_iff (ha : ∀ name ∈ a.atoms, IsCapital name) :
    c ∈ a.characters ↔ String.singleton c ∈ a.atoms ∨ isMark c = true := by
  have hatoms : (∃ name ∈ a.atoms, c ∈ name.toList) ↔ String.singleton c ∈ a.atoms := by
    constructor
    · rintro ⟨name, hname, hc⟩
      obtain ⟨p, _, hp⟩ := ha name hname
      rw [hp, List.mem_singleton] at hc
      have heq : String.singleton c = name := String.toList_inj.1 (by rw [hp, hc]; simp)
      exact heq ▸ hname
    · exact fun h => ⟨_, h, by simp⟩
  have hglyphs : (∃ d ∈ Connective.all, d.glyph = c) ↔ ∃ d : Connective, c = d.glyph :=
    ⟨fun ⟨d, _, h⟩ => ⟨d, h.symm⟩, fun ⟨d, h⟩ => ⟨d, d.mem_all, h.symm⟩⟩
  rw [characters, List.mem_append, List.mem_append, List.mem_flatMap, List.mem_map, hatoms, hglyphs,
    isMark_iff]
  simp only [List.mem_cons, List.not_mem_nil, or_false, or_assoc]

/-! ## Texts that fit -/

theorem not_isMisfit_iff :
    ¬ a.IsMisfit s c ↔ (isBlank c = false → c ∈ a.characters) ∧
      (c = ')' → s.count ')' < s.count '(') := by
  simp only [IsMisfit, not_or, not_and, not_not, Nat.not_le]

theorem fits_nil (a : Alphabet) : a.Fits [] := by
  intro u c h
  simp at h

theorem fits_concat_iff : a.Fits (s ++ [c]) ↔ a.Fits s ∧ ¬ a.IsMisfit s c := by
  constructor
  · intro h
    exact ⟨fun u d hu => h u d (hu.trans (List.prefix_append s [c])), h s c (List.prefix_refl _)⟩
  · rintro ⟨hs, hc⟩ u d hu
    rcases List.prefix_concat_iff.1 hu with heq | hu
    · obtain ⟨rfl, hd⟩ := List.append_inj' heq rfl
      cases hd
      exact hc
    · exact hs u d hu

theorem count_concat_le_iff (h : s.count ')' ≤ s.count '(') :
    (s ++ [c]).count ')' ≤ (s ++ [c]).count '(' ↔ (c = ')' → s.count ')' < s.count '(') := by
  rw [List.count_append, List.count_append, List.count_singleton, List.count_singleton]
  by_cases hclosing : c = ')'
  · subst hclosing
    show s.count ')' + 1 ≤ s.count '(' ↔ _
    exact ⟨fun hlt _ => hlt, fun hlt => hlt rfl⟩
  · simp only [hclosing, beq_iff_eq, if_false, false_imp_iff, iff_true]
    omega

/-- A text fits if its characters belong to formulas and every group is opened before it is
closed. -/
theorem fits_iff : a.Fits s ↔
    (∀ c ∈ s, isBlank c = false → c ∈ a.characters) ∧
      ∀ u, u <+: s → u.count ')' ≤ u.count '(' := by
  -- on the last character: its condition speaks about all that stands before it
  induction s using List.reverseRecOn with
  | nil => simp [fits_nil]
  | append_singleton s c ih =>
      rw [fits_concat_iff, ih, not_isMisfit_iff]
      constructor
      · rintro ⟨⟨hchars, hopened⟩, hc, hclosing⟩
        refine ⟨List.forall_mem_append.2 ⟨hchars, List.forall_mem_singleton.2 hc⟩, fun u hu => ?_⟩
        rcases List.prefix_concat_iff.1 hu with rfl | hu
        · exact (count_concat_le_iff (hopened s (List.prefix_refl s))).2 hclosing
        · exact hopened u hu
      · rintro ⟨hchars, hopened⟩
        obtain ⟨hs, hc⟩ := List.forall_mem_append.1 hchars
        have hbefore : ∀ u, u <+: s → u.count ')' ≤ u.count '(' := fun u hu =>
          hopened u (hu.trans (List.prefix_append s [c]))
        have hwhole := hopened (s ++ [c]) (List.prefix_refl _)
        exact ⟨⟨hs, hbefore⟩, List.forall_mem_singleton.1 hc,
          (count_concat_le_iff (hbefore s (List.prefix_refl s))).1 hwhole⟩

instance (a : Alphabet) (s : List Char) : Decidable (a.Fits s) :=
  decidable_of_iff ((s.all fun c => isBlank c || a.characters.contains c) = true ∧
      ∀ u ∈ s.inits, u.count ')' ≤ u.count '(') (by
    simp [fits_iff, or_iff_not_imp_left])

/-! ## The tokens of a text that fits -/

/-- The characters of a text as tokens, without the blanks. -/
def singleTokens (s : List Char) : List String :=
  (s.filter (!isBlank ·)).map String.singleton

theorem leads_singleton (ha : ∀ name ∈ a.atoms, IsCapital name) (hc : c ∈ a.characters)
    (t : List Char) : a.Leads [c] t := by
  rcases (mem_characters_iff ha).1 hc with hname | hmark
  · simpa using leads_of_mem ha hname t
  · exact leads_of_isMark ha hmark t

theorem split_append_of_fits (ha : ∀ name ∈ a.atoms, IsCapital name)
    (hs : ∀ c ∈ s, isBlank c = false → c ∈ a.characters) (t : List Char) :
    a.split (s ++ t) = singleTokens s ++ a.split t := by
  have hsolid := isSolid_of_mem ha
  induction s with
  | nil => rfl
  | cons c s ih =>
      have ih := ih fun d hd => hs d (by simp [hd])
      rw [List.cons_append]
      cases hblank : isBlank c with
      | true =>
          rw [split_blank_cons hsolid hblank, ih]
          simp [singleTokens, hblank]
      | false =>
          have hleads := leads_singleton ha (hs c (by simp) hblank) (s ++ t)
          have hsplit : a.split (c :: (s ++ t)) = String.ofList [c] :: a.split (s ++ t) :=
            split_of_leads hsolid hleads
          rw [hsplit, ih, ← String.singleton_eq_ofList]
          simp [singleTokens, hblank]

theorem countP_singleTokens {q : String → Bool} {d : Char} (hblank : isBlank d = false)
    (hq : ∀ c, q (String.singleton c) = (c == d)) (s : List Char) :
    (singleTokens s).countP q = s.count d := by
  rw [singleTokens, List.countP_map, List.countP_filter, List.count]
  apply List.countP_congr
  intro c _
  simp only [Function.comp_apply, hq, Bool.and_eq_true, beq_iff_eq, Bool.not_eq_true']
  exact ⟨fun h => h.1, fun h => ⟨h, h ▸ hblank⟩⟩

theorem parentheses_notMem (ha : ∀ name ∈ a.atoms, IsCapital name) :
    "(" ∉ a.atoms ∧ ")" ∉ a.atoms := by
  have hupper : ∀ c : Char, String.singleton c ∈ a.atoms → c.isUpper = true := by
    intro c hc
    obtain ⟨p, hp, heq⟩ := ha _ hc
    have hcp : c = p := by simpa using heq
    exact hcp ▸ hp
  exact ⟨fun h => absurd (hupper '(' h) (by decide), fun h => absurd (hupper ')' h) (by decide)⟩

theorem beq_singleton_and_not_isAtom {d : Char} (hd : String.singleton d ∉ a.atoms) (c : Char) :
    (String.singleton c == String.singleton d && !a.isAtom (String.singleton c)) = (c == d) := by
  by_cases heq : c = d
  · subst heq
    simp [isAtom, hd]
  · have hne : String.singleton c ≠ String.singleton d := by simpa using heq
    rw [beq_false_of_ne hne, beq_false_of_ne heq, Bool.false_and]

theorem isOpening_singleton (ha : ∀ name ∈ a.atoms, IsCapital name) (c : Char) :
    a.isOpening (String.singleton c) = (c == '(') :=
  beq_singleton_and_not_isAtom (d := '(') (parentheses_notMem ha).1 c

theorem isClosing_singleton (ha : ∀ name ∈ a.atoms, IsCapital name) (c : Char) :
    a.isClosing (String.singleton c) = (c == ')') :=
  beq_singleton_and_not_isAtom (d := ')') (parentheses_notMem ha).2 c

/-- The groups that are open after a text that fits are those of its characters. -/
theorem count_opening_of_run_singleTokens (ha : ∀ name ∈ a.atoms, IsCapital name) {σ : Compiler}
    (h : Compiler.run {} ((singleTokens s).map a.symbol) = (σ, none)) :
    s.count '(' = s.count ')' + σ.waiting.count .opening := by
  have hcount := Compiler.count_opening_of_run h
  rwa [countP_singleTokens (by decide) (isOpening_singleton ha),
    countP_singleTokens (by decide) (isClosing_singleton ha)] at hcount

theorem symbol_singleton_ne_unknown (ha : ∀ name ∈ a.atoms, IsCapital name)
    (hc : c ∈ a.characters) (text : String) : a.symbol (String.singleton c) ≠ .unknown text := by
  rw [Ne, symbol_eq_unknown_iff]
  rintro ⟨_, hmem, htext, hopening, hclosing⟩
  rcases (mem_characters_iff ha).1 hc with hname | hmark
  · exact hmem hname
  · rcases isMark_iff.1 hmark with rfl | rfl | ⟨d, rfl⟩
    · exact hopening rfl
    · exact hclosing rfl
    · exact htext d rfl

/-- The compiler accepts the next character if it fits. -/
theorem exists_step_of_not_isMisfit (ha : ∀ name ∈ a.atoms, IsCapital name) {σ : Compiler}
    (hrun : Compiler.run {} ((singleTokens s).map a.symbol) = (σ, none))
    (hblank : isBlank c = false) (hc : ¬ a.IsMisfit s c) :
    ∃ σ', σ.step (a.symbol (String.singleton c)) = .ok σ' := by
  obtain ⟨hchar, hclosing⟩ := not_isMisfit_iff.1 hc
  cases hstep : σ.step (a.symbol (String.singleton c)) with
  | ok σ' => exact ⟨σ', rfl⟩
  | error e =>
      exfalso
      rcases Compiler.step_eq_error_iff.1 hstep with ⟨text, htext, _⟩ | ⟨hsymbol, hzero, _⟩
      · exact symbol_singleton_ne_unknown ha (hchar hblank) text htext
      · have heq : (c == ')') = true := by
          rw [← isClosing_singleton ha]
          exact symbol_eq_closing_iff.1 hsymbol
        have hcount := count_opening_of_run_singleTokens ha hrun
        have hlt := hclosing (beq_iff_eq.1 heq)
        omega

theorem exists_run_of_fits (ha : ∀ name ∈ a.atoms, IsCapital name) (h : a.Fits s) :
    ∃ σ, Compiler.run {} ((singleTokens s).map a.symbol) = (σ, none) := by
  induction s using List.reverseRecOn with
  | nil => exact ⟨{}, rfl⟩
  | append_singleton s c ih =>
      obtain ⟨hs, hc⟩ := fits_concat_iff.1 h
      obtain ⟨σ, hrun⟩ := ih hs
      cases hblank : isBlank c with
      | true => exact ⟨σ, by simpa [singleTokens, hblank] using hrun⟩
      | false =>
          obtain ⟨σ', hstep⟩ := exists_step_of_not_isMisfit ha hrun hblank hc
          have htokens : singleTokens (s ++ [c]) = singleTokens s ++ [String.singleton c] := by
            simp [singleTokens, hblank]
          refine ⟨σ', ?_⟩
          rw [htokens, List.map_append, List.map_singleton, Compiler.run_append_of_ok hrun,
            Compiler.run_cons_of_transition (.of_step hstep), Compiler.run_nil]

/-! ## The first character that does not fit -/

theorem exists_foreignToken_eq (c : Char) (rest : List Char) :
    ∃ w, foreignToken c rest = c :: w := by
  cases hword : isWord c <;> simp [foreignToken, hword]

theorem leadingToken?_of_foreign (ha : ∀ name ∈ a.atoms, IsCapital name)
    (hblank : isBlank c = false) (hc : c ∉ a.characters) (rest : List Char) :
    a.leadingToken? (c :: rest) = some (foreignToken c rest) := by
  obtain ⟨hname, hmark⟩ := not_or.1 (mt (mem_characters_iff ha).2 hc)
  have hatom : a.NoAtom (c :: rest) := by
    intro name hmem _ hpre
    obtain ⟨p, _, hp⟩ := ha name hmem
    rw [hp, List.cons_prefix_cons] at hpre
    have heq : String.singleton c = name := String.toList_inj.1 (by rw [hp, hpre.1]; simp)
    exact hname (heq ▸ hmem)
  unfold leadingToken?
  rw [find?_atoms_eq_none_iff.2 hatom]
  cases hword : isWord c <;> simp [foreignToken, hmark, hblank, hword]

theorem symbol_of_foreign (ha : ∀ name ∈ a.atoms, IsCapital name) (hc : c ∉ a.characters)
    (w : List Char) : a.symbol (String.ofList (c :: w)) = .unknown (String.ofList (c :: w)) := by
  obtain ⟨hname, hmark⟩ := not_or.1 (mt (mem_characters_iff ha).2 hc)
  have hne : ∀ d : Char, String.ofList (c :: w) = String.singleton d → c = d := by
    intro d h
    have hlist := congrArg String.toList h
    simp only [String.toList_ofList, String.toList_singleton] at hlist
    exact (List.cons.inj hlist).1
  have hmark' := mt isMark_iff.2 hmark
  simp only [not_or, not_exists] at hmark'
  apply symbol_of_other
  · intro hmem
    obtain ⟨p, _, hp⟩ := ha _ hmem
    have heq : String.ofList (c :: w) = String.singleton p :=
      String.toList_inj.1 (by simpa using hp)
    rw [heq, ← hne p heq] at hmem
    exact hname hmem
  · exact fun d h => hmark'.2.2 d (hne d.glyph h)
  · exact fun h => hmark'.1 (hne '(' h)
  · exact fun h => hmark'.2.1 (hne ')' h)

/-- The tokens of what fits are read first.  If the next token then fails, the whole text does. -/
theorem outcome_of_step_eq_error (ha : ∀ name ∈ a.atoms, IsCapital name) (hs : a.Fits s)
    {token : String} {ts : List String} {e : CompileError} (ht : a.split t = token :: ts)
    (hstep : ∀ σ, Compiler.run {} ((singleTokens s).map a.symbol) = (σ, none) →
      σ.step (a.symbol token) = .error e) :
    (a.compileTokens (a.split (s ++ t))).outcome = .error e := by
  obtain ⟨σ, hrun⟩ := exists_run_of_fits ha hs
  have hwhole : Compiler.run {} ((a.split (s ++ t)).map a.symbol) = (σ, some e) := by
    rw [split_append_of_fits ha (fits_iff.1 hs).1, List.map_append, Compiler.run_append_of_ok hrun,
      ht, List.map_cons, Compiler.run_cons_of_error (hstep σ hrun)]
  rw [compileTokens_of_run_error hwhole]

/-- A text that fits is read to its end, where only an open group can be wrong. -/
theorem outcome_of_fits (ha : ∀ name ∈ a.atoms, IsCapital name) (hs : a.Fits s) :
    (s.count ')' = s.count '(' → ∃ p, (a.compileTokens (a.split s)).outcome = .ok p) ∧
      (s.count ')' < s.count '(' →
        (a.compileTokens (a.split s)).outcome = .error .mismatchedParentheses) := by
  have hsplit : a.split s = singleTokens s := by
    have happend := split_append_of_fits ha (fits_iff.1 hs).1 []
    have hnil : a.split [] = [] := emptyTokens_of_solid (isSolid_of_mem ha) []
    rwa [hnil, List.append_nil, List.append_nil] at happend
  obtain ⟨σ, hrun⟩ := exists_run_of_fits ha hs
  have hcount := count_opening_of_run_singleTokens ha hrun
  rw [hsplit, compileTokens_of_run hrun]
  rcases σ.finish_cases with ⟨hzero, hfinish⟩ | ⟨hopen, hfinish⟩
  · exact ⟨fun _ => hfinish, fun h => by omega⟩
  · exact ⟨fun h => by omega, fun _ => hfinish⟩

theorem outcome_of_rejects (ha : ∀ name ∈ a.atoms, IsCapital name) {e : CompileError}
    (h : a.Rejects s e) : (a.compileTokens (a.split s)).outcome = .error e := by
  have hsolid := isSolid_of_mem ha
  cases h with
  | @foreign before rest c hbefore hblank hc =>
      obtain ⟨w, hw⟩ := exists_foreignToken_eq c rest
      obtain ⟨s', heq, hleads⟩ :=
        exists_leads_of_leadingToken? (leadingToken?_of_foreign ha hblank hc rest)
      have hsplit : a.split (c :: rest) = String.ofList (foreignToken c rest) :: a.split s' := by
        rw [heq, split_of_leads hsolid hleads]
      refine outcome_of_step_eq_error ha hbefore hsplit fun σ _ => ?_
      rw [hw, symbol_of_foreign ha hc]
      rfl
  | @unopened before rest hbefore hopen =>
      have hsplit : a.split (')' :: rest) = ")" :: a.split rest :=
        split_of_leads hsolid (leads_of_isMark ha (by decide) rest)
      refine outcome_of_step_eq_error ha hbefore hsplit fun σ hrun => ?_
      have hcount := count_opening_of_run_singleTokens ha hrun
      rw [symbol_closing (parentheses_notMem ha).2, Compiler.step_eq_error_iff]
      exact .inr ⟨rfl, by omega, rfl⟩
  | unclosed hs hopen => exact (outcome_of_fits ha hs).2 hopen

/-! ## Every text is accepted or rejected -/

theorem exists_isMisfit_of_not_fits (h : ¬ a.Fits s) :
    ∃ before c rest, s = before ++ c :: rest ∧ a.Fits before ∧ a.IsMisfit before c := by
  induction s using List.reverseRecOn with
  | nil => exact absurd a.fits_nil h
  | append_singleton s d ih =>
      by_cases hs : a.Fits s
      · have hd : a.IsMisfit s d := by
          by_contra hd
          exact h (fits_concat_iff.2 ⟨hs, hd⟩)
        exact ⟨s, d, [], rfl, hs, hd⟩
      · obtain ⟨before, c, rest, rfl, hbefore, hc⟩ := ih hs
        exact ⟨before, c, rest ++ [d], by simp, hbefore, hc⟩

theorem exists_rejects_or_balanced (a : Alphabet) (s : List Char) :
    (∃ e, a.Rejects s e) ∨ a.Fits s ∧ Balanced s := by
  by_cases hs : a.Fits s
  · have hclosing := (fits_iff.1 hs).2
    rcases Nat.lt_or_eq_of_le (hclosing s (List.prefix_refl s)) with hopen | hsettled
    · exact .inl ⟨_, .unclosed hs hopen⟩
    · exact .inr ⟨hs, hclosing, hsettled⟩
  · obtain ⟨before, c, rest, rfl, hbefore, hc⟩ := exists_isMisfit_of_not_fits hs
    rcases hc with hforeign | ⟨rfl, hopen⟩
    · exact .inl ⟨_, .foreign hbefore hforeign.1 hforeign.2⟩
    · exact .inl ⟨_, .unopened hbefore hopen⟩

theorem outcome_eq_error_iff (ha : ∀ name ∈ a.atoms, IsCapital name) {e : CompileError} :
    (a.compileTokens (a.split s)).outcome = .error e ↔ a.Rejects s e := by
  refine ⟨fun h => ?_, outcome_of_rejects ha⟩
  rcases a.exists_rejects_or_balanced s with ⟨e', he'⟩ | ⟨hs, hbalanced⟩
  · rw [outcome_of_rejects ha he'] at h
    cases h
    exact he'
  · obtain ⟨p, hp⟩ := (outcome_of_fits ha hs).1 hbalanced.settled
    cases hp.symm.trans h

theorem exists_outcome_eq_ok_iff (ha : ∀ name ∈ a.atoms, IsCapital name) :
    (∃ p, (a.compileTokens (a.split s)).outcome = .ok p) ↔
      (∀ c ∈ s, isBlank c = false → c ∈ a.characters) ∧ Balanced s := by
  constructor
  · rintro ⟨p, hp⟩
    rcases a.exists_rejects_or_balanced s with ⟨e, he⟩ | ⟨hs, hbalanced⟩
    · cases hp.symm.trans (outcome_of_rejects ha he)
    · exact ⟨(fits_iff.1 hs).1, hbalanced⟩
  · rintro ⟨hchars, hbalanced⟩
    exact (outcome_of_fits ha (fits_iff.2 ⟨hchars, hbalanced.closing_le⟩)).1 hbalanced.settled

/-- A text compiles exactly if its canonical form has only characters of formulas and balanced
parentheses; what is wrong with the canonical form is what the compilation fails with. -/
theorem compile_text_outcome (s : String) :
    ((∃ p, (builder.compile (.text s)).outcome = .ok p) ↔
      (∀ c ∈ builder.canonical s.toList, isBlank c = false → c ∈ builder.characters) ∧
        Balanced (builder.canonical s.toList)) ∧
    ∀ e, (builder.compile (.text s)).outcome = .error e ↔
      builder.Rejects (builder.canonical s.toList) e := by
  have hsolid := isSolid_of_mem isCapital_of_mem_builder
  unfold compile
  rw [tokens_text hsolid]
  exact ⟨exists_outcome_eq_ok_iff isCapital_of_mem_builder,
    fun _ => outcome_eq_error_iff isCapital_of_mem_builder⟩

/-- A foreign letter takes the atom after it along, and what comes later does not count. -/
theorem compile_text_outcome_foreign :
    builder.Rejects (builder.canonical "(P -> xQ))".toList) (.unknownToken "xQ") ∧
      (builder.compile (.text "(P -> xQ))")).outcome = .error (.unknownToken "xQ") := by
  have hfits : builder.Fits "(P → ".toList := by decide
  have hrejects : builder.Rejects ("(P → ".toList ++ 'x' :: "Q))".toList) (.unknownToken "xQ") :=
    .foreign hfits (by decide) (by decide)
  exact ⟨hrejects, ((compile_text_outcome _).2 _).2 hrejects⟩

end Alphabet

end Sentential
