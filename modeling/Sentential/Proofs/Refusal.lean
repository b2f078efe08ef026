import Sentential.Compilation
import Sentential.Proofs.Spelling
/-!
# Texts that are refused

Where words are spellings, an alphabet with an atom that is no template can read no text, and every
text with characters is refused, by whatever reads formulas.  Tokens are not read and never refused.
An alphabet whose atoms have no backslash refuses nothing.
-/

namespace Sentential

open Text

namespace Alphabet

/-- The formula is a text with characters, and no text can be read in the alphabet. -/
structure Refuses (a : Alphabet) (source : Source) (e : TemplateError) : Prop where
  templateError : a.templateError? = some e
  text : ∃ s, source = .text s ∧ s ≠ ""

variable {a : Alphabet} {source : Source} {e : TemplateError} {s t : String} {ts : List String}

theorem atomFault?_of_notMem {name : String} (h : '\\' ∉ name.toList) : atomFault? name = none := by
  rw [atomFault?, Template.read_of_notMem h]

theorem templateError?_of_notMem
    (h : a.wordSpellings = true → ∀ name ∈ a.atoms, '\\' ∉ name.toList) :
    a.templateError? = none := by
  unfold templateError?
  split
  case isTrue hwords =>
    rw [List.findSome?_eq_none_iff]
    exact fun name hname => atomFault?_of_notMem (h hwords name hname)
  case isFalse => rfl

/-! ## Rewriting -/

theorem normalize_eq_error_iff : a.normalize s = .error e ↔ a.templateError? = some e := by
  unfold normalize
  split <;> simp [*]

theorem normalize_eq_ok (h : a.templateError? = none) (s : String) :
    a.normalize s = .ok (a.canonicalText s) := by
  rw [normalize, h]

/-! ## Tokens -/

theorem tokenize_of_refuses (h : a.Refuses source e) : a.tokenize source = .error e := by
  obtain ⟨herror, s, rfl, hne⟩ := h
  rw [tokenize, if_neg (by simpa using hne), normalize_eq_error_iff.2 herror]
  rfl

theorem tokenize_of_templateError?_eq_none (h : a.templateError? = none) (source : Source) :
    a.tokenize source = .ok (a.tokens source) := by
  cases source with
  | missing => rfl
  | text s =>
      rw [tokenize, tokens, normalize_eq_ok h]
      split
      · rfl
      · show Except.ok (a.split (a.canonicalText s).toList) = _
        rw [canonicalText, String.toList_ofList]
  | tokens ts => rfl

/-- Where no text can be read only the one without characters has tokens, namely none. -/
theorem tokenize_text_of_templateError? (h : a.templateError? = some e) (s : String) :
    a.tokenize (.text s) = if s = "" then .ok [] else .error e := by
  split
  case isTrue hs =>
    rw [hs]
    rfl
  case isFalse hs => exact tokenize_of_refuses ⟨h, s, rfl, hs⟩

/-- A formula is refused, or else split into its tokens. -/
theorem tokenize_cases (a : Alphabet) (source : Source) :
    (∃ e, a.Refuses source e ∧ a.tokenize source = .error e) ∨
      (∀ e, ¬ a.Refuses source e) ∧ a.tokenize source = .ok (a.tokens source) := by
  cases herror : a.templateError? with
  | none =>
      refine .inr ⟨fun e h => ?_, tokenize_of_templateError?_eq_none herror source⟩
      cases herror.symm.trans h.templateError
  | some e =>
      by_cases htext : ∃ s, source = .text s ∧ s ≠ ""
      · exact .inl ⟨e, ⟨herror, htext⟩, tokenize_of_refuses ⟨herror, htext⟩⟩
      · refine .inr ⟨fun e h => htext h.text, ?_⟩
        cases source with
        | missing => rfl
        | text s =>
            obtain rfl : s = "" := by
              by_contra hne
              exact htext ⟨s, rfl, hne⟩
            rfl
        | tokens ts => rfl

theorem tokenize_eq_error_iff : a.tokenize source = .error e ↔ a.Refuses source e := by
  refine ⟨fun h => ?_, tokenize_of_refuses⟩
  rcases a.tokenize_cases source with ⟨e', hrefuses, herror⟩ | ⟨_, hok⟩
  · cases herror.symm.trans h
    exact hrefuses
  · cases hok.symm.trans h

theorem eq_tokens_of_tokenize (h : a.tokenize source = .ok ts) : ts = a.tokens source := by
  rcases a.tokenize_cases source with ⟨e, _, herror⟩ | ⟨_, hok⟩
  · cases herror.symm.trans h
  · cases hok.symm.trans h
    rfl

/-! ## Programs -/

theorem compileSource_of_tokenize (h : a.tokenize source = .ok ts) :
    a.compileSource source = .ok (a.compile source) := by
  rw [compileSource, h, eq_tokens_of_tokenize h]
  rfl

end Alphabet

end Sentential
