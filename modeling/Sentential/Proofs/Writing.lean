import Sentential.Proofs.Spacing
import Sentential.Proofs.Symbol
/-!
# Writing tokens as a text

A token can be written in several ways, and blanks may stand around it.  Where words are spellings a
blank is needed between two word characters; elsewhere none is.  However the tokens are written, the
text is split into them again.
-/

namespace Sentential

open Text

namespace Connective

/-- The signs that stand for a connective besides its glyph. -/
def signs : Connective → List String
  | .not => ["~"]
  | .binary .and => ["^"]
  | .binary .or => ["v"]
  | .binary .implies => ["->"]
  | .binary .iff => ["<->", "<=>"]

/-- The English word for a connective. -/
def word : Connective → String
  | .not => "not"
  | .binary .and => "and"
  | .binary .or => "or"
  | .binary .implies => "implies"
  | .binary .iff => "iff"

theorem toList_text (c : Connective) : c.text.toList = [c.glyph] := by
  simp [text]

theorem isAlpha_word (c : Connective) : c.word.toList.all Char.isAlpha = true := by
  rcases c with _ | (_ | _ | _ | _) <;> decide

theorem isAlpha_of_map_toLower {c : Connective} {t : List Char}
    (ht : t.map Char.toLower = c.word.toList) :
    ∀ d ∈ t, d.isAlpha = true := by
  intro d hd
  rw [← isAlpha_toLower]
  apply List.all_eq_true.1 (isAlpha_word c)
  rw [← ht]
  exact List.mem_map_of_mem hd

theorem ne_nil_of_map_toLower {c : Connective} {t : List Char}
    (ht : t.map Char.toLower = c.word.toList) : t ≠ [] := by
  rintro rfl
  rcases c with _ | (_ | _ | _ | _) <;> cases ht

end Connective

namespace Alphabet

/-- The ways to write a token. -/
inductive Spells (a : Alphabet) : String → List Char → Prop
  | atom {name : String} (hname : name ∈ a.atoms) : Spells a name name.toList
  | opening : Spells a "(" ['(']
  | closing : Spells a ")" [')']
  | glyph (c : Connective) : Spells a c.text [c.glyph]
  | sign {c : Connective} {t : String} (ht : t ∈ c.signs) : Spells a c.text t.toList
  | lowerAtom {name : String} (hwords : a.wordSpellings = true) (hname : name ∈ a.atoms) :
      Spells a name (name.toList.map Char.toLower)
  | capitalV (hwords : a.wordSpellings = true) : Spells a (Connective.binary .or).text ['V']
  | word {c : Connective} {t : List Char} (hwords : a.wordSpellings = true)
      (ht : t.map Char.toLower = c.word.toList) : Spells a c.text t

/-- The texts that write a list of tokens, with blanks around the spellings. -/
inductive Writes (a : Alphabet) : List String → List Char → Prop
  | nil {w : List Char} (hw : ∀ c ∈ w, isBlank c = true) : Writes a [] w
  | cons {token : String} {ts : List String} {w t s : List Char}
      (hw : ∀ c ∈ w, isBlank c = true) (ht : a.Spells token t) (hs : Writes a ts s)
      (hgap : a.wordSpellings = true →
        ∀ d ∈ t.getLast?, ∀ e ∈ s.head?, ¬ (isWord d = true ∧ isWord e = true)) :
      Writes a (token :: ts) (w ++ t ++ s)

variable {a : Alphabet} {token : String} {s t : List Char} {ts : List String}

/-! ## Tokens in a canonical text -/

theorem isSolid_of_isCapital {name : String} (h : IsCapital name) : IsSolid name := by
  obtain ⟨c, hc, hname⟩ := h
  constructor
  · rintro rfl
    cases hname
  · intro d hd
    rw [hname, List.mem_singleton] at hd
    subst hd
    exact isBlank_of_isWord (isWord_of_isAlpha (isAlpha_of_isUpper hc))

theorem isSolid_of_mem (ha : ∀ name ∈ a.atoms, IsCapital name) :
    ∀ name ∈ a.atoms, IsSolid name :=
  fun name hname => isSolid_of_isCapital (ha name hname)

theorem noAtom_of_isUpper (ha : ∀ name ∈ a.atoms, IsCapital name) {c : Char}
    (hc : c.isUpper = false) (s : List Char) : a.NoAtom (c :: s) := by
  intro name hname _ hpre
  obtain ⟨d, hd, heq⟩ := ha name hname
  rw [heq, List.cons_prefix_cons] at hpre
  rw [hpre.1, hc] at hd
  cases hd

theorem leads_of_mem (ha : ∀ name ∈ a.atoms, IsCapital name) {name : String}
    (hname : name ∈ a.atoms) (s : List Char) : a.Leads name.toList s := by
  obtain ⟨before, after, hatoms, hnotMem⟩ := List.eq_append_cons_of_mem hname
  refine .atom hatoms (isSolid_of_isCapital (ha name hname)).1 fun other hother _ hpre => ?_
  have hmem : other ∈ a.atoms := by
    rw [hatoms]
    simp [hother]
  obtain ⟨c, _, hc⟩ := ha name hname
  obtain ⟨d, _, hd⟩ := ha other hmem
  rw [hc, hd, List.singleton_append, List.cons_prefix_cons] at hpre
  have heq : other = name := by
    rw [← String.toList_inj, hd, hc, hpre.1]
  exact hnotMem (heq ▸ hother)

theorem leads_of_isMark (ha : ∀ name ∈ a.atoms, IsCapital name) {c : Char}
    (hc : isMark c = true) (s : List Char) : a.Leads [c] s := by
  refine .mark (noAtom_of_isUpper ha ?_ s) hc
  rcases isMark_iff.1 hc with rfl | rfl | ⟨d, rfl⟩
  · decide
  · decide
  · rcases d with _ | (_ | _ | _ | _) <;> decide

theorem leads_text (ha : ∀ name ∈ a.atoms, IsCapital name) (c : Connective) (s : List Char) :
    a.Leads c.text.toList s := by
  rw [Connective.toList_text]
  exact leads_of_isMark ha (isMark_iff.2 (.inr (.inr ⟨c, rfl⟩))) s

theorem leads_of_spells (ha : ∀ name ∈ a.atoms, IsCapital name) (h : a.Spells token t)
    (s : List Char) : a.Leads token.toList s := by
  cases h with
  | atom hname => exact leads_of_mem ha hname s
  | lowerAtom _ hname => exact leads_of_mem ha hname s
  | opening => exact leads_of_isMark ha (by decide) s
  | closing => exact leads_of_isMark ha (by decide) s
  | glyph c => exact leads_text ha c s
  | @sign c _ _ => exact leads_text ha c s
  | capitalV _ => exact leads_text ha _ s
  | @word c _ _ _ => exact leads_text ha c s

/-! ## Where spellings meet -/

theorem canonical_glyph (ha : a.HasLetters) (c : Connective) :
    a.canonical [c.glyph] = [c.glyph] :=
  canonical_singleton ha (beginsSign_of_notMem c.glyph_notMem_signs) c.isWord_glyph

/-- Every spelling has a last character, with which no sign could go on. -/
theorem Spells.exists_last (ha : ∀ name ∈ a.atoms, IsCapital name) (h : a.Spells token t) :
    ∃ d, t.getLast? = some d ∧ opensSign d = false := by
  cases h with
  | atom hname =>
      obtain ⟨c, hc, heq⟩ := ha _ hname
      have hsigns := notMem_signs_of_isAlpha (isAlpha_of_isUpper hc)
      exact ⟨c, by rw [heq]; rfl, opensSign_of_notMem hsigns⟩
  | lowerAtom _ hname =>
      obtain ⟨c, hc, heq⟩ := ha _ hname
      have halpha : c.toLower.isAlpha = true := (isAlpha_toLower c).trans (isAlpha_of_isUpper hc)
      exact ⟨c.toLower, by rw [heq]; rfl, opensSign_of_notMem (notMem_signs_of_isAlpha halpha)⟩
  | opening => exact ⟨'(', rfl, by decide⟩
  | closing => exact ⟨')', rfl, by decide⟩
  | glyph c => exact ⟨c.glyph, rfl, opensSign_of_notMem c.glyph_notMem_signs⟩
  | @sign c t ht =>
      have hsigns : ∀ c ∈ Connective.all, ∀ t ∈ c.signs,
          (t.toList.getLast?.any fun d => !opensSign d) = true := by
        decide
      simpa [Option.any_eq_true] using hsigns c c.mem_all t ht
  | capitalV _ => exact ⟨'V', rfl, by decide⟩
  | @word c t _ ht =>
      have hne := Connective.ne_nil_of_map_toLower ht
      have halpha := Connective.isAlpha_of_map_toLower ht _ (List.getLast_mem hne)
      have hopens := opensSign_of_notMem (notMem_signs_of_isAlpha halpha)
      exact ⟨_, List.getLast?_eq_some_getLast hne, hopens⟩

theorem Writes.splits (ha : ∀ name ∈ a.atoms, IsCapital name)
    (hcanonical : ∀ token t, a.Spells token t → a.canonical t = token.toList)
    (h : a.Writes ts s) : a.Splits (a.canonical s) ts := by
  have hletters : a.HasLetters := fun _ => ha
  have hsolid := isSolid_of_mem ha
  induction h with
  | nil hw =>
      rw [canonical_blanks hsolid hw]
      simpa using Splits.blanks_append hw .nil
  | @cons token ts w t s hw ht hs hgap ih =>
      have hts : Apart a.joined t s := by
        obtain ⟨d, hlast, hopens⟩ := ht.exists_last ha
        rintro c hc e he (⟨hwords, hword⟩ | ⟨hsign, _⟩)
        · exact hgap hwords c hc e he hword
        · cases hlast.symm.trans hc
          exact Bool.false_ne_true (hopens.symm.trans hsign)
      have hleads := leads_of_spells ha ht (a.canonical s)
      rw [List.append_assoc, canonical_blanks_append hsolid hw, canonical_append hletters hts,
        hcanonical token t ht]
      simpa using Splits.blanks_append hw (Splits.token hleads ih)

/-- The tokens of a text depend on the single spellings only. -/
theorem Writes.tokens_text_eq (ha : ∀ name ∈ a.atoms, IsCapital name)
    (hcanonical : ∀ token t, a.Spells token t → a.canonical t = token.toList) {s : String}
    (h : a.Writes ts s.toList) : a.tokens (.text s) = ts := by
  have hsolid := isSolid_of_mem ha
  rw [tokens_text hsolid]
  exact (h.splits ha hcanonical).split_eq hsolid

/-! ## Without word spellings -/

theorem canonical_of_spells_plain (hwords : a.wordSpellings = false)
    (ha : ∀ name ∈ a.atoms, IsCapital name) (h : a.Spells token t) :
    a.canonical t = token.toList := by
  have hnot : a.wordSpellings ≠ true := by simp [hwords]
  have hletters : a.HasLetters := fun _ => ha
  cases h with
  | atom hname =>
      obtain ⟨c, hc, heq⟩ := ha _ hname
      have hsign := beginsSign_of_notMem (notMem_signs_of_isAlpha (isAlpha_of_isUpper hc))
      have hv : 'v' ≠ c := by
        rintro rfl
        exact absurd hc (by decide)
      rw [heq, canonical_of_plain hwords, substituteAll_symbolRules_self (by simpa using hsign),
        apply_letterRule_self (by simpa using hv)]
  | opening => exact canonical_singleton hletters (by decide) (by decide +kernel)
  | closing => exact canonical_singleton hletters (by decide) (by decide +kernel)
  | glyph c => rw [Connective.toList_text, canonical_glyph hletters]
  | @sign c t ht =>
      have hsigns : ∀ c ∈ Connective.all, ∀ t ∈ c.signs,
          letterRule.apply (substituteAll symbolRules t.toList) = [c.glyph] := by
        decide
      rw [Connective.toList_text, canonical_of_plain hwords]
      exact hsigns c c.mem_all t ht
  | lowerAtom hwords' _ => exact absurd hwords' hnot
  | capitalV hwords' => exact absurd hwords' hnot
  | word hwords' _ => exact absurd hwords' hnot

/-- Without word spellings the tokens are found however they are written, with or without blanks
between them. -/
theorem tokens_of_writes_signs {s : String} (hwords : a.wordSpellings = false)
    (hatoms : ∀ name ∈ a.atoms, IsCapital name) (h : a.Writes ts s.toList) :
    a.tokens (.text s) = ts :=
  h.tokens_text_eq hatoms fun _ _ ht => canonical_of_spells_plain hwords hatoms ht

theorem isCapital_of_mem_builder : ∀ name ∈ builder.atoms, IsCapital name := by
  simp only [builder, List.forall_mem_cons, List.not_mem_nil, false_imp_iff, implies_true, and_true]
  exact ⟨⟨'P', by decide⟩, ⟨'Q', by decide⟩, ⟨'R', by decide⟩, ⟨'S', by decide⟩⟩

/-- Signs that end in one another, and the letter v between two atoms. -/
theorem tokens_of_writes_signs_adjacent :
    builder.Writes ["P", "↔", "¬", "Q", "→", "R", "∨", "S"] "P<->~Q-> RvS ".toList ∧
      builder.tokens (.text "P<->~Q-> RvS ") = ["P", "↔", "¬", "Q", "→", "R", "∨", "S"] := by
  have hgap : ∀ s t : List Char, builder.wordSpellings = true →
      ∀ d ∈ t.getLast?, ∀ e ∈ s.head?, ¬ (isWord d = true ∧ isWord e = true) :=
    fun _ _ hwords => absurd hwords (by decide)
  have hnone : ∀ c ∈ ([] : List Char), isBlank c = true := List.forall_mem_nil _
  have hspace : ∀ c ∈ [' '], isBlank c = true := List.forall_mem_singleton.2 (by decide)
  have hS : builder.Writes ["S"] "S ".toList :=
    .cons hnone (.atom (by decide)) (.nil hspace) (hgap _ _)
  have hR : builder.Writes ["R", "∨", "S"] " RvS ".toList :=
    .cons hspace (.atom (by decide)) (.cons hnone (.sign (c := .binary .or) (t := "v") (by decide))
      hS (hgap _ _)) (hgap _ _)
  have hQ : builder.Writes ["Q", "→", "R", "∨", "S"] "Q-> RvS ".toList :=
    .cons hnone (.atom (by decide)) (.cons hnone
      (.sign (c := .binary .implies) (t := "->") (by decide)) hR (hgap _ _)) (hgap _ _)
  have hnot : builder.Writes ["¬", "Q", "→", "R", "∨", "S"] "~Q-> RvS ".toList :=
    .cons hnone (.sign (c := .not) (t := "~") (by decide)) hQ (hgap _ _)
  have hP : builder.Writes ["P", "↔", "¬", "Q", "→", "R", "∨", "S"] "P<->~Q-> RvS ".toList :=
    .cons hnone (.atom (by decide)) (.cons hnone
      (.sign (c := .binary .iff) (t := "<->") (by decide)) hnot (hgap _ _)) (hgap _ _)
  exact ⟨hP, tokens_of_writes_signs rfl isCapital_of_mem_builder hP⟩

end Alphabet

end Sentential
