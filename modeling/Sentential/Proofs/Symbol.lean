import Sentential.Token
/-!
# What a token stands for

A token is an atom if the alphabet lists it, whatever it looks like.  Of the other tokens the glyphs
are connectives, the parentheses open and close groups, and all the rest are unknown.
-/

namespace Sentential

/-- The name of a symbol that is an atom. -/
def Symbol.atom? : Symbol → Option String
  | .atom name => some name
  | _ => none

theorem Connective.text_injective {c d : Connective} (h : c.text = d.text) : c = d := by
  apply glyph_injective
  simpa [text] using congrArg String.toList h

theorem Connective.ofText?_text (c : Connective) : ofText? c.text = some c := by
  rcases c with _ | (_ | _ | _ | _) <;> decide

theorem Connective.ofText?_eq_none_iff {s : String} :
    ofText? s = none ↔ ∀ c : Connective, s ≠ c.text := by
  simp only [ofText?, List.find?_eq_none, beq_iff_eq]
  exact ⟨fun h c hc => h c c.mem_all hc.symm, fun h c _ hc => h c hc.symm⟩

namespace Alphabet

variable {a : Alphabet}

theorem isAtom_iff {s : String} : a.isAtom s = true ↔ s ∈ a.atoms := by
  simp [isAtom]

/-- No atom looks like a glyph or a parenthesis. -/
structure IsPlain (a : Alphabet) : Prop where
  text_notMem (c : Connective) : c.text ∉ a.atoms
  opening_notMem : "(" ∉ a.atoms
  closing_notMem : ")" ∉ a.atoms

instance (a : Alphabet) : Decidable a.IsPlain :=
  decidable_of_iff ((∀ c ∈ Connective.all, c.text ∉ a.atoms) ∧ "(" ∉ a.atoms ∧ ")" ∉ a.atoms)
    ⟨fun h => ⟨fun c => h.1 c c.mem_all, h.2.1, h.2.2⟩,
      fun h => ⟨fun c _ => h.text_notMem c, h.opening_notMem, h.closing_notMem⟩⟩

theorem symbol_of_mem {name : String} (h : name ∈ a.atoms) : a.symbol name = .atom name := by
  rw [symbol, if_pos (isAtom_iff.2 h)]

theorem not_isAtom {token : String} (h : token ∉ a.atoms) : ¬ a.isAtom token = true := by
  simpa [isAtom] using h

theorem symbol_text_of_notMem {c : Connective} (h : c.text ∉ a.atoms) :
    a.symbol c.text = .connective c := by
  rw [symbol, if_neg (not_isAtom h), c.ofText?_text]

theorem symbol_text (ha : a.IsPlain) (c : Connective) : a.symbol c.text = .connective c :=
  symbol_text_of_notMem (ha.text_notMem c)

theorem symbol_opening (h : "(" ∉ a.atoms) : a.symbol "(" = .opening := by
  rw [symbol, if_neg (not_isAtom h)]
  rfl

theorem symbol_closing (h : ")" ∉ a.atoms) : a.symbol ")" = .closing := by
  rw [symbol, if_neg (not_isAtom h)]
  rfl

/-- A token that is no atom, no glyph and no parenthesis is unknown. -/
theorem symbol_of_other {token : String} (h : token ∉ a.atoms)
    (htext : ∀ c : Connective, token ≠ c.text) (hopening : token ≠ "(")
    (hclosing : token ≠ ")") : a.symbol token = .unknown token := by
  rw [symbol, if_neg (not_isAtom h), Connective.ofText?_eq_none_iff.2 htext]
  simp only [if_neg hopening, if_neg hclosing]

/-- A token is of exactly one of five kinds. -/
theorem symbol_cases (a : Alphabet) (token : String) :
    (token ∈ a.atoms ∧ a.symbol token = .atom token) ∨
    (token ∉ a.atoms ∧ ∃ c : Connective, token = c.text ∧ a.symbol token = .connective c) ∨
    ("(" ∉ a.atoms ∧ token = "(" ∧ a.symbol token = .opening) ∨
    (")" ∉ a.atoms ∧ token = ")" ∧ a.symbol token = .closing) ∨
    (token ∉ a.atoms ∧ (∀ c : Connective, token ≠ c.text) ∧ token ≠ "(" ∧ token ≠ ")" ∧
      a.symbol token = .unknown token) := by
  by_cases hmem : token ∈ a.atoms
  · exact .inl ⟨hmem, symbol_of_mem hmem⟩
  · right
    by_cases htext : ∃ c : Connective, token = c.text
    · obtain ⟨c, rfl⟩ := htext
      exact .inl ⟨hmem, c, rfl, symbol_text_of_notMem hmem⟩
    · right
      have htext : ∀ c : Connective, token ≠ c.text := fun c hc => htext ⟨c, hc⟩
      by_cases hopening : token = "("
      · subst hopening
        exact .inl ⟨hmem, rfl, symbol_opening hmem⟩
      · by_cases hclosing : token = ")"
        · subst hclosing
          exact .inr (.inl ⟨hmem, rfl, symbol_closing hmem⟩)
        · exact .inr (.inr ⟨hmem, htext, hopening, hclosing,
            symbol_of_other hmem htext hopening hclosing⟩)

/-- Whether a token opens a group. -/
def isOpening (a : Alphabet) (token : String) : Bool := token == "(" && !a.isAtom token

/-- Whether a token closes a group. -/
def isClosing (a : Alphabet) (token : String) : Bool := token == ")" && !a.isAtom token

theorem symbol_eq_opening_iff {token : String} :
    a.symbol token = .opening ↔ a.isOpening token = true := by
  constructor
  · intro h
    rcases a.symbol_cases token with ⟨_, hs⟩ | ⟨_, _, _, hs⟩ | ⟨hmem, rfl, _⟩ | ⟨_, _, hs⟩ |
      ⟨_, _, _, _, hs⟩
    case inr.inr.inl => simpa [isOpening, isAtom] using hmem
    all_goals exact absurd (hs.symm.trans h) (by simp)
  · intro h
    obtain ⟨rfl, hmem⟩ : token = "(" ∧ token ∉ a.atoms := by
      simpa [isOpening, isAtom] using h
    exact symbol_opening hmem

theorem symbol_eq_closing_iff {token : String} :
    a.symbol token = .closing ↔ a.isClosing token = true := by
  constructor
  · intro h
    rcases a.symbol_cases token with ⟨_, hs⟩ | ⟨_, _, _, hs⟩ | ⟨_, _, hs⟩ | ⟨hmem, rfl, _⟩ |
      ⟨_, _, _, _, hs⟩
    case inr.inr.inr.inl => simpa [isClosing, isAtom] using hmem
    all_goals exact absurd (hs.symm.trans h) (by simp)
  · intro h
    obtain ⟨rfl, hmem⟩ : token = ")" ∧ token ∉ a.atoms := by
      simpa [isClosing, isAtom] using h
    exact symbol_closing hmem

theorem symbol_eq_unknown_iff {token text : String} :
    a.symbol token = .unknown text ↔
      text = token ∧ token ∉ a.atoms ∧ (∀ c : Connective, token ≠ c.text) ∧ token ≠ "(" ∧
        token ≠ ")" := by
  constructor
  · intro h
    rcases a.symbol_cases token with ⟨_, hs⟩ | ⟨_, _, _, hs⟩ | ⟨_, _, hs⟩ | ⟨_, _, hs⟩ |
      ⟨hmem, htext, hopening, hclosing, hs⟩
    case inr.inr.inr.inr =>
      cases hs.symm.trans h
      exact ⟨rfl, hmem, htext, hopening, hclosing⟩
    all_goals exact absurd (hs.symm.trans h) (by simp)
  · rintro ⟨rfl, hmem, htext, hopening, hclosing⟩
    exact symbol_of_other hmem htext hopening hclosing

theorem count_symbols {s : Symbol} {q : String → Bool}
    (h : ∀ token, a.symbol token = s ↔ q token = true) (ts : List String) :
    (ts.map a.symbol).count s = ts.countP q := by
  rw [List.count, List.countP_map]
  apply List.countP_congr
  intro token _
  simpa using h token

theorem atom?_symbol (a : Alphabet) (token : String) :
    (a.symbol token).atom? = if a.isAtom token then some token else none := by
  rcases a.symbol_cases token with ⟨hmem, hs⟩ | ⟨hmem, c, _, hs⟩ | ⟨hmem, rfl, hs⟩ |
    ⟨hmem, rfl, hs⟩ | ⟨hmem, _, _, _, hs⟩ <;> simp [hs, Symbol.atom?, isAtom, hmem]

/-- The names read from a token list are the tokens that are atoms. -/
theorem filterMap_atom?_symbol (a : Alphabet) (ts : List String) :
    (ts.map a.symbol).filterMap Symbol.atom? = ts.filter a.isAtom := by
  induction ts with
  | nil => rfl
  | cons t ts ih =>
      rw [List.map_cons, List.filterMap_cons, atom?_symbol, List.filter_cons, ih]
      cases a.isAtom t <;> rfl

end Alphabet

end Sentential
