import Sentential.Proofs.Spelling
import Sentential.Token
/-!
# How a text is split

At each place the first rule that fits gives the next token: an atom, where the order of the
alphabet decides; a mark; a word, up to the next character that is not of it; any other character.
Blanks are skipped.  If no atom contains a blank, a token is found again wherever a blank follows
it.
-/

namespace Sentential

open Text

/-- The atom is not empty and contains no blank. -/
def IsSolid (name : String) : Prop := name ≠ "" ∧ ∀ c ∈ name.toList, isBlank c = false

instance (name : String) : Decidable (IsSolid name) :=
  decidable_of_iff (name ≠ "" ∧ name.toList.all (!isBlank ·) = true) (by simp [IsSolid])

namespace Alphabet

/-- The text begins with no atom, apart from the empty one. -/
def NoAtom (a : Alphabet) (s : List Char) : Prop :=
  ∀ name ∈ a.atoms, name ≠ "" → ¬ name.toList <+: s

/-- The first token of a text, and the rest of the text. -/
inductive Leads (a : Alphabet) : List Char → List Char → Prop
  | atom {before after : List String} {name : String} {s : List Char}
      (hatoms : a.atoms = before ++ name :: after) (hne : name ≠ "")
      (hfirst : ∀ other ∈ before, other ≠ "" → ¬ other.toList <+: name.toList ++ s) :
      Leads a name.toList s
  | mark {c : Char} {s : List Char} (hatom : a.NoAtom (c :: s)) (hc : isMark c = true) :
      Leads a [c] s
  | word {c : Char} {t s : List Char} (hatom : a.NoAtom (c :: t ++ s)) (hmark : isMark c = false)
      (hword : ∀ d ∈ c :: t, isWord d = true) (hend : ∀ d ∈ s.head?, isWord d = false) :
      Leads a (c :: t) s
  | other {c : Char} {s : List Char} (hatom : a.NoAtom (c :: s)) (hmark : isMark c = false)
      (hword : isWord c = false) (hblank : isBlank c = false) : Leads a [c] s

variable {a : Alphabet} {s s' t : List Char}

theorem Leads.ne_nil (h : a.Leads t s) : t ≠ [] := by
  cases h with
  | atom _ hne _ => simpa using hne
  | mark _ _ => simp
  | word _ _ _ _ => simp
  | other _ _ _ _ => simp

theorem find?_atoms_eq_some_iff {name : String} :
    (a.atoms.filter (!·.isEmpty)).find? (fun name => name.toList.isPrefixOf s) = some name ↔
      name ≠ "" ∧ name.toList <+: s ∧ ∃ before after, a.atoms = before ++ name :: after ∧
        ∀ other ∈ before, other ≠ "" → ¬ other.toList <+: s := by
  rw [List.find?_filter, List.find?_eq_some_iff_append]
  simp [and_assoc, or_iff_not_imp_left]

theorem find?_atoms_eq_none_iff :
    (a.atoms.filter (!·.isEmpty)).find? (fun name => name.toList.isPrefixOf s) = none ↔
      a.NoAtom s := by
  rw [List.find?_filter, List.find?_eq_none]
  simp [NoAtom]

theorem takeWhile_append_of_forall {p : Char → Bool} (ht : ∀ c ∈ t, p c = true)
    (hs : ∀ c ∈ s.head?, p c = false) : (t ++ s).takeWhile p = t := by
  rw [List.takeWhile_append_of_pos ht]
  cases s with
  | nil => simp
  | cons c s => simp [hs c rfl]

theorem leadingToken?_of_leads (h : a.Leads t s) : a.leadingToken? (t ++ s) = some t := by
  unfold leadingToken?
  cases h with
  | @atom before after name s hatoms hne hfirst =>
      rw [find?_atoms_eq_some_iff.2 ⟨hne, List.prefix_append _ _, before, after, hatoms, hfirst⟩]
  | @mark c s hatom hc =>
      rw [List.singleton_append, find?_atoms_eq_none_iff.2 hatom]
      simp [hc]
  | @word c t s hatom hmark hword hend =>
      rw [find?_atoms_eq_none_iff.2 hatom]
      have htake : (c :: (t ++ s)).takeWhile isWord = c :: t :=
        takeWhile_append_of_forall hword hend
      simp [hmark, hword c (by simp), htake]
  | @other c s hatom hmark hword hblank =>
      rw [List.singleton_append, find?_atoms_eq_none_iff.2 hatom]
      simp [hmark, hword, hblank]

theorem exists_leads_of_leadingToken? (h : a.leadingToken? s = some t) :
    ∃ s', s = t ++ s' ∧ a.Leads t s' := by
  unfold leadingToken? at h
  split at h
  case h_1 name hfind =>
    cases h
    obtain ⟨hne, ⟨s', rfl⟩, before, after, hatoms, hfirst⟩ := find?_atoms_eq_some_iff.1 hfind
    exact ⟨s', rfl, .atom hatoms hne hfirst⟩
  case h_2 hfind =>
    have hatom := find?_atoms_eq_none_iff.1 hfind
    cases s with
    | nil => cases h
    | cons c s =>
        cases hmark : isMark c with
        | true =>
            obtain rfl : [c] = t := by simpa [hmark] using h
            exact ⟨s, rfl, .mark hatom hmark⟩
        | false =>
            cases hword : isWord c with
            | true =>
                obtain rfl : c :: s.takeWhile isWord = t := by
                  simpa [hmark, hword] using h
                have hcut : c :: s = c :: s.takeWhile isWord ++ s.dropWhile isWord := by
                  rw [List.cons_append, List.takeWhile_append_dropWhile]
                refine ⟨s.dropWhile isWord, hcut, .word (hcut ▸ hatom) hmark ?_ ?_⟩
                · intro d hd
                  rcases List.mem_cons.1 hd with rfl | hd
                  · exact hword
                  · exact List.all_eq_true.1 List.all_takeWhile d hd
                · intro d hd
                  have hstop := List.head?_dropWhile_not isWord s
                  rw [hd] at hstop
                  exact hstop
            | false =>
                obtain ⟨hblank, rfl⟩ : isBlank c = false ∧ [c] = t := by
                  simpa [hmark, hword] using h
                exact ⟨s, rfl, .other hatom hmark hword hblank⟩

theorem exists_leads_or_isBlank (a : Alphabet) (c : Char) (s : List Char) :
    (∃ t s', c :: s = t ++ s' ∧ a.Leads t s') ∨
      isBlank c = true ∧ a.leadingToken? (c :: s) = none := by
  cases h : a.leadingToken? (c :: s) with
  | some t =>
      obtain ⟨s', heq, ht⟩ := exists_leads_of_leadingToken? h
      exact .inl ⟨t, s', heq, ht⟩
  | none =>
      refine .inr ⟨?_, rfl⟩
      unfold leadingToken? at h
      split at h
      · cases h
      · by_contra hblank
        revert h
        simp only [hblank, if_false]
        split_ifs <;> simp

/-! ## Splitting a text whose atoms contain no blank -/

theorem emptyTokens_of_solid (ha : ∀ name ∈ a.atoms, IsSolid name) (s : List Char) :
    a.emptyTokens s = [] := by
  unfold emptyTokens
  split
  case h_1 name hname =>
    have hne := (ha name (List.mem_of_find?_eq_some hname)).1
    simp [hne]
  case h_2 => rfl

theorem noAtom_of_isBlank (ha : ∀ name ∈ a.atoms, IsSolid name) {c : Char}
    (hc : isBlank c = true) (s : List Char) : a.NoAtom (c :: s) := by
  intro name hname hne hpre
  obtain ⟨d, u, hd⟩ : ∃ d u, name.toList = d :: u := by
    apply List.exists_cons_of_ne_nil
    simpa using hne
  rw [hd, List.cons_prefix_cons] at hpre
  have hsolid := (ha name hname).2 d (by rw [hd]; simp)
  rw [hpre.1, hc] at hsolid
  cases hsolid

theorem prefix_of_isSolid {name : String} (hname : IsSolid name)
    (hs : ∀ c ∈ s.head?, isBlank c = true) (hpre : name.toList <+: t ++ s) : name.toList <+: t := by
  obtain ⟨rest, heq⟩ := hpre
  rcases List.append_eq_append_iff.1 heq with ⟨u, rfl, _⟩ | ⟨u, hu, rfl⟩
  · exact List.prefix_append name.toList u
  · cases u with
    | nil => exact (by simpa using hu : name.toList = t) ▸ List.prefix_refl _
    | cons c u =>
        have hblank := hs c rfl
        rw [hname.2 c (by rw [hu]; simp)] at hblank
        cases hblank

theorem NoAtom.of_blank (ha : ∀ name ∈ a.atoms, IsSolid name) (h : a.NoAtom (t ++ s))
    (hs' : ∀ c ∈ s'.head?, isBlank c = true) : a.NoAtom (t ++ s') := by
  intro name hname hne hpre
  have hpre := prefix_of_isSolid (ha name hname) hs' hpre
  exact h name hname hne (hpre.trans (List.prefix_append t s))

/-- The same token is found again if a blank or the end of the text takes the place of what comes
later. -/
theorem Leads.of_append_blank (ha : ∀ name ∈ a.atoms, IsSolid name) {u : List Char}
    (h : a.Leads t (u ++ s)) (hs' : ∀ c ∈ s'.head?, isBlank c = true) : a.Leads t (u ++ s') := by
  generalize hrest : u ++ s = rest at h
  cases h with
  | @atom before after name rest hatoms hne hfirst =>
      subst hrest
      refine .atom hatoms hne fun other hother hotherne hpre => ?_
      have hmem : other ∈ a.atoms := by
        rw [hatoms]
        simp [hother]
      -- the other atom ends before the blank, so it would have come first in the old text too
      rw [← List.append_assoc] at hpre
      have hpre := prefix_of_isSolid (ha other hmem) hs' hpre
      refine hfirst other hother hotherne (hpre.trans ?_)
      rw [← List.append_assoc]
      exact List.prefix_append _ s
  | @mark c rest hatom hc =>
      subst hrest
      exact .mark (NoAtom.of_blank (t := c :: u) ha hatom hs') hc
  | @word c t rest hatom hmark hword hend =>
      subst hrest
      rw [← List.append_assoc] at hatom
      have hatom' := hatom.of_blank ha hs'
      rw [List.append_assoc] at hatom'
      refine .word hatom' hmark hword ?_
      cases u with
      | nil => exact fun d hd => isWord_of_isBlank (hs' d hd)
      | cons d u => exact hend
  | @other c rest hatom hmark hword hblank =>
      subst hrest
      exact .other (NoAtom.of_blank (t := c :: u) ha hatom hs') hmark hword hblank

/-- The same token is found again if a blank or the end of the text follows it. -/
theorem Leads.of_blank (ha : ∀ name ∈ a.atoms, IsSolid name) (h : a.Leads t s)
    (hs' : ∀ c ∈ s'.head?, isBlank c = true) : a.Leads t s' :=
  of_append_blank (u := []) ha h hs'

/-- A text and its tokens. -/
inductive Splits (a : Alphabet) : List Char → List String → Prop
  | nil : Splits a [] []
  | blank {c : Char} {s : List Char} {ts : List String} (hc : isBlank c = true)
      (h : Splits a s ts) : Splits a (c :: s) ts
  | token {t s : List Char} {ts : List String} (ht : a.Leads t s) (h : Splits a s ts) :
      Splits a (t ++ s) (String.ofList t :: ts)

theorem isMark_iff {c : Char} :
    isMark c = true ↔ c = '(' ∨ c = ')' ∨ ∃ d : Connective, c = d.glyph := by
  simp only [isMark, Bool.or_eq_true, beq_iff_eq, List.any_eq_true, or_assoc]
  constructor
  · rintro (h | h | ⟨d, _, h⟩)
    · exact .inl h
    · exact .inr (.inl h)
    · exact .inr (.inr ⟨d, h.symm⟩)
  · rintro (h | h | ⟨d, h⟩)
    · exact .inl h
    · exact .inr (.inl h)
    · exact .inr (.inr ⟨d, d.mem_all, h.symm⟩)

theorem isMark_of_isBlank {c : Char} (h : isBlank c = true) : isMark c = false := by
  rw [← Bool.not_eq_true, isMark_iff]
  rintro (rfl | rfl | ⟨d, rfl⟩)
  · exact absurd h (by decide)
  · exact absurd h (by decide)
  · exact absurd h (by rcases d with _ | (_ | _ | _ | _) <;> decide)

theorem isMark_of_isWord {c : Char} (h : isWord c = true) : isMark c = false := by
  rw [← Bool.not_eq_true, isMark_iff]
  rintro (rfl | rfl | ⟨d, rfl⟩)
  · exact absurd h (by decide +kernel)
  · exact absurd h (by decide +kernel)
  · exact Bool.false_ne_true (d.isWord_glyph.symm.trans h)

theorem split_blank_cons (ha : ∀ name ∈ a.atoms, IsSolid name) {c : Char}
    (hc : isBlank c = true) (s : List Char) : a.split (c :: s) = a.split s := by
  have hnone : a.leadingToken? (c :: s) = none := by
    unfold leadingToken?
    rw [find?_atoms_eq_none_iff.2 (noAtom_of_isBlank ha hc s)]
    simp [isMark_of_isBlank hc, isWord_of_isBlank hc, hc]
  rw [split_cons, emptyTokens_of_solid ha, List.nil_append, hnone]

theorem split_of_leads (ha : ∀ name ∈ a.atoms, IsSolid name) (h : a.Leads t s) :
    a.split (t ++ s) = String.ofList t :: a.split s := by
  obtain ⟨c, u, rfl⟩ := List.exists_cons_of_ne_nil h.ne_nil
  have hlead := leadingToken?_of_leads h
  rw [List.cons_append] at hlead ⊢
  rw [split_cons, emptyTokens_of_solid ha, List.nil_append, hlead]
  simp

theorem splits_split (ha : ∀ name ∈ a.atoms, IsSolid name) (s : List Char) :
    a.Splits s (a.split s) := by
  induction hn : s.length using Nat.strong_induction_on generalizing s with
  | _ n ih =>
      subst hn
      cases s with
      | nil =>
          have hnil : a.split [] = [] := emptyTokens_of_solid ha []
          rw [hnil]
          exact .nil
      | cons c s =>
          rcases a.exists_leads_or_isBlank c s with ⟨t, s', heq, ht⟩ | ⟨hblank, _⟩
          · have hlength : s'.length < (c :: s).length := by
              have hpos := List.length_pos_iff.2 ht.ne_nil
              rw [heq, List.length_append]
              omega
            rw [heq, split_of_leads ha ht]
            exact .token ht (ih s'.length hlength s' rfl)
          · rw [split_blank_cons ha hblank]
            exact .blank hblank (ih s.length (by simp) s rfl)

theorem Splits.split_eq (ha : ∀ name ∈ a.atoms, IsSolid name) {ts : List String}
    (h : a.Splits s ts) : a.split s = ts := by
  induction h with
  | nil => exact emptyTokens_of_solid ha []
  | blank hc _ ih => rw [split_blank_cons ha hc, ih]
  | token ht _ ih => rw [split_of_leads ha ht, ih]

/-- Every token stands somewhere in the text, and the tokens after it are those of the rest. -/
theorem Splits.exists_place {before after : List String} {token : String}
    (h : a.Splits s (before ++ token :: after)) :
    ∃ left right, s = left ++ (token.toList ++ right) ∧ a.Leads token.toList right ∧
      a.Splits right after := by
  generalize hts : before ++ token :: after = ts at h
  induction h generalizing before with
  | nil => simp at hts
  | @blank c s ts hc _ ih =>
      obtain ⟨left, right, rfl, hplace⟩ := ih hts
      exact ⟨c :: left, right, rfl, hplace⟩
  | @token t s ts ht hs ih =>
      cases before with
      | nil =>
          obtain ⟨rfl, rfl⟩ := List.cons.inj hts
          rw [String.toList_ofList]
          exact ⟨[], s, rfl, ht, hs⟩
      | cons first before =>
          obtain ⟨left, right, rfl, hplace⟩ := ih (List.cons.inj hts).2
          exact ⟨t ++ left, right, (List.append_assoc t left _).symm, hplace⟩

/-- Every token is a part of the text with which the text goes on at some place. -/
theorem Splits.exists_leads {ts : List String} (h : a.Splits s ts) {token : String}
    (htoken : token ∈ ts) : token.toList <:+: s ∧ ∃ s', a.Leads token.toList s' := by
  obtain ⟨before, after, rfl⟩ := List.append_of_mem htoken
  obtain ⟨left, right, rfl, hleads, _⟩ := h.exists_place
  exact ⟨⟨left, right, by simp⟩, right, hleads⟩

theorem Splits.blanks_append {w : List Char} {ts : List String}
    (hw : ∀ c ∈ w, isBlank c = true) (h : a.Splits s ts) : a.Splits (w ++ s) ts := by
  induction w with
  | nil => exact h
  | cons c w ih => exact .blank (hw c (by simp)) (ih fun d hd => hw d (by simp [hd]))

/-- A blank between two texts, or none if the second is empty, keeps their tokens apart. -/
theorem Splits.append (ha : ∀ name ∈ a.atoms, IsSolid name) {ts ts' : List String}
    (h : a.Splits s ts) (hs' : ∀ c ∈ s'.head?, isBlank c = true) (h' : a.Splits s' ts') :
    a.Splits (s ++ s') (ts ++ ts') := by
  induction h with
  | nil => exact h'
  | blank hc _ ih => exact .blank hc ih
  | @token t s ts ht _ ih =>
      rw [← List.append_nil s] at ht
      rw [List.append_assoc]
      exact .token (ht.of_append_blank ha hs') ih

/-- The tokens of a text are those of its canonical form. -/
theorem tokens_text (ha : ∀ name ∈ a.atoms, IsSolid name) (s : String) :
    a.tokens (.text s) = a.split (a.canonical s.toList) := by
  unfold tokens
  cases hempty : s.isEmpty with
  | false => simp [hempty]
  | true =>
      obtain rfl := String.isEmpty_iff.1 hempty
      have hnil : a.split [] = [] := emptyTokens_of_solid ha []
      simp [hnil]

end Alphabet

end Sentential
