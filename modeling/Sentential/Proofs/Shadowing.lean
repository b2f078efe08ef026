import Sentential.Proofs.Token
/-!
# Atoms that hide others

Where two atoms fit, the one that is listed first is taken, not the longer one.  So an atom is
hidden by an earlier one with which it begins: no text has the hidden atom among its tokens, not
even the atom itself.  Any other atom is the only token of itself as a text.
-/

namespace Sentential

open Text

/-- A word in which nothing is spelled. -/
structure IsPlainWord (name : String) : Prop where
  ne_empty : name ≠ ""
  isWord : ∀ c ∈ name.toList, isWord c = true
  noLetterV : 'v' ∉ name.toList

instance (name : String) : Decidable (IsPlainWord name) :=
  decidable_of_iff (name ≠ "" ∧ name.toList.all isWord = true ∧ 'v' ∉ name.toList) <| by
    rw [List.all_eq_true]
    exact ⟨fun ⟨hne, hword, hv⟩ => ⟨hne, hword, hv⟩, fun ⟨hne, hword, hv⟩ => ⟨hne, hword, hv⟩⟩

theorem IsPlainWord.isSolid {name : String} (h : IsPlainWord name) : IsSolid name :=
  ⟨h.ne_empty, fun c hc => isBlank_of_isWord (h.isWord c hc)⟩

namespace Alphabet

/-- An atom that is listed before the first place of another one is a proper prefix of it. -/
def Shadowed (a : Alphabet) (name : String) : Prop :=
  ∃ other ∈ a.atoms.takeWhile (· != name), other ≠ name ∧ other.toList <+: name.toList

instance (a : Alphabet) (name : String) : Decidable (a.Shadowed name) :=
  inferInstanceAs (Decidable (∃ other ∈ a.atoms.takeWhile (· != name), _))

variable {a : Alphabet} {name : String} {before after : List String} {s : List Char}

/-! ## What is listed before an atom -/

theorem takeWhile_ne_subset (before after : List String) (name : String) :
    (before ++ name :: after).takeWhile (· != name) ⊆ before := by
  have hstop : (name :: after).takeWhile (· != name) = [] :=
    List.takeWhile_cons_of_neg (by simp)
  rw [List.takeWhile_append, hstop, List.append_nil]
  split
  · exact List.Subset.refl before
  · exact List.takeWhile_subset _

theorem takeWhile_ne_of_notMem (h : name ∉ before) :
    (before ++ name :: after).takeWhile (· != name) = before := by
  have hall : ∀ other ∈ before, (other != name) = true := by
    intro other hother
    rw [bne_iff_ne]
    rintro rfl
    exact h hother
  rw [List.takeWhile_append_of_pos hall, List.takeWhile_cons_of_neg (by simp), List.append_nil]

/-! ## Where an atom is found -/

/-- A word is an atom by the rule for atoms only, and there an atom that hides it comes first. -/
theorem not_shadowed_of_leads (ha : ∀ name ∈ a.atoms, IsPlainWord name) (hname : name ∈ a.atoms)
    (h : a.Leads name.toList s) : ¬ a.Shadowed name := by
  have hword := (ha name hname).isWord
  generalize ht : name.toList = t at h hword
  cases h with
  | @atom before after found s hatoms _ hfirst =>
      obtain rfl : name = found := String.toList_inj.1 ht
      rintro ⟨other, hother, _, hpre⟩
      have hne := (ha other (List.takeWhile_subset _ hother)).ne_empty
      rw [hatoms] at hother
      have hbefore := takeWhile_ne_subset before after name hother
      exact hfirst other hbefore hne (hpre.trans (List.prefix_append _ s))
  | @mark c s _ hmark =>
      have hnone := isMark_of_isWord (hword c (by simp))
      exact absurd (hnone.symm.trans hmark) Bool.false_ne_true
  | @word c t s hatom _ _ _ =>
      have hpre : name.toList <+: c :: t ++ s := ht ▸ List.prefix_append _ s
      exact absurd hpre (hatom name hname (ha name hname).ne_empty)
  | @other c s _ _ hother _ =>
      exact absurd hother (by simp [hword c])

theorem leads_of_not_shadowed (hname : name ∈ a.atoms) (hne : name ≠ "")
    (h : ¬ a.Shadowed name) : a.Leads name.toList [] := by
  obtain ⟨before, after, hatoms, hnotMem⟩ := List.eq_append_cons_of_mem hname
  refine .atom hatoms hne ?_
  intro other hother _ hpre
  rw [List.append_nil] at hpre
  refine h ⟨other, ?_, ?_, hpre⟩
  · rwa [hatoms, takeWhile_ne_of_notMem hnotMem]
  · rintro rfl
    exact hnotMem hother

theorem canonical_of_isPlainWord (hwords : a.wordSpellings = false) (h : IsPlainWord name) :
    a.canonical name.toList = name.toList := by
  rw [canonical_of_plain hwords, substituteAll_symbolRules_word h.isWord,
    apply_letterRule_self h.noLetterV]

/-- An atom is a token of some text if no atom hides it, and then it is the one token of itself. -/
theorem exists_mem_tokens_iff_not_shadowed (hwords : a.wordSpellings = false)
    (ha : ∀ name ∈ a.atoms, IsPlainWord name) (hname : name ∈ a.atoms) :
    ((∃ s : String, name ∈ a.tokens (.text s)) ↔ ¬ a.Shadowed name) ∧
      (¬ a.Shadowed name → a.tokens (.text name) = [name]) := by
  have hsolid : ∀ name ∈ a.atoms, IsSolid name := fun name hname => (ha name hname).isSolid
  have halone : ¬ a.Shadowed name → a.tokens (.text name) = [name] := by
    intro h
    have hleads := leads_of_not_shadowed hname (ha name hname).ne_empty h
    have hsplit := split_of_leads hsolid hleads
    rw [List.append_nil, String.ofList_toList] at hsplit
    have hnil : a.split [] = [] := emptyTokens_of_solid hsolid []
    rw [tokens_text hsolid, canonical_of_isPlainWord hwords (ha name hname), hsplit, hnil]
  refine ⟨⟨?_, ?_⟩, halone⟩
  · rintro ⟨s, hmem⟩
    rw [tokens_text hsolid] at hmem
    obtain ⟨_, _, hleads⟩ := (splits_split hsolid _).exists_leads hmem
    exact not_shadowed_of_leads ha hname hleads
  · intro h
    exact ⟨name, by simp [halone h]⟩

/-- The longer atom is found where it is listed first, and hidden where the shorter one is. -/
theorem exists_mem_tokens_iff_not_shadowed_order :
    tokens { atoms := ["AB", "A", "AC", "AB"] } (.text "AB") = ["AB"] ∧
      ¬ ∃ s : String, "AC" ∈ tokens { atoms := ["AB", "A", "AC", "AB"] } (.text s) := by
  have hplain : ∀ name ∈ ["AB", "A", "AC", "AB"], IsPlainWord name := by decide +kernel
  have hfirst : ¬ Shadowed { atoms := ["AB", "A", "AC", "AB"] } "AB" := by decide
  have hhidden : Shadowed { atoms := ["AB", "A", "AC", "AB"] } "AC" := by decide
  constructor
  · exact (exists_mem_tokens_iff_not_shadowed rfl hplain (by decide)).2 hfirst
  · intro hfound
    exact (exists_mem_tokens_iff_not_shadowed (a := { atoms := ["AB", "A", "AC", "AB"] }) rfl hplain
      (by decide)).1.1 hfound hhidden

end Alphabet

end Sentential
