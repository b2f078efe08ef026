import Sentential.Proofs.Refusal
import Sentential.Proofs.Token
/-!
# What splitting keeps of a text

Blanks belong to no token, and every other character belongs to one.  So the tokens in a row are the
text without its blanks, and each token has its place in the text: the tokens before it cover what
comes before that place, and the tokens after it cover the rest.
-/

namespace Sentential

open Text

namespace Alphabet

/-- What may be a token where the given text comes after it.  A word does not begin with an atom and
has all the word characters that stand together; what is no word is a single character. -/
def IsTokenBefore (a : Alphabet) (token : String) (rest : List Char) : Prop :=
  token ∈ a.atoms ∨ (∃ c : Connective, token = c.text) ∨ token = "(" ∨ token = ")" ∨
    (token ≠ "" ∧ (∀ c ∈ token.toList, isWord c = true) ∧
      (∀ name ∈ a.atoms, ¬ name.toList <+: token.toList) ∧ ∀ c ∈ rest.head?, isWord c = false) ∨
    ∃ c, token = String.singleton c ∧ isMark c = false ∧ isWord c = false ∧ isBlank c = false

variable {a : Alphabet} {s t : List Char} {ts before after : List String} {token : String}

theorem Leads.isTokenBefore (ha : ∀ name ∈ a.atoms, IsSolid name) (h : a.Leads t s) :
    a.IsTokenBefore (String.ofList t) s := by
  cases h with
  | @atom before after name s hatoms _ _ =>
      rw [String.ofList_toList]
      exact .inl (by simp [hatoms])
  | @mark c s _ hc =>
      rcases isMark_iff.1 hc with rfl | rfl | ⟨d, rfl⟩
      · exact .inr (.inr (.inl rfl))
      · exact .inr (.inr (.inr (.inl rfl)))
      · exact .inr (.inl ⟨d, rfl⟩)
  | @word c t s hatom _ hword hend =>
      refine .inr (.inr (.inr (.inr (.inl ⟨by simp, ?_, ?_, hend⟩))))
      · rwa [String.toList_ofList]
      · rw [String.toList_ofList]
        intro name hname hpre
        exact hatom name hname (ha name hname).1 (hpre.trans (List.prefix_append (c :: t) s))
  | @other c s _ hmark hword hblank =>
      exact .inr (.inr (.inr (.inr (.inr ⟨c, rfl, hmark, hword, hblank⟩))))

theorem Leads.isBlank_eq_false (ha : ∀ name ∈ a.atoms, IsSolid name) (h : a.Leads t s) :
    ∀ c ∈ t, isBlank c = false := by
  cases h with
  | @atom before after name s hatoms _ _ => exact (ha name (by simp [hatoms])).2
  | @mark c s _ hc =>
      rw [List.forall_mem_singleton, ← Bool.not_eq_true]
      intro hblank
      exact Bool.false_ne_true ((isMark_of_isBlank hblank).symm.trans hc)
  | word _ _ hword _ => exact fun d hd => isBlank_of_isWord (hword d hd)
  | other _ _ _ hblank => rwa [List.forall_mem_singleton]

theorem filter_not_isBlank_self (h : ∀ c ∈ t, isBlank c = false) :
    t.filter (!isBlank ·) = t := by
  rw [List.filter_eq_self]
  intro c hc
  simp [h c hc]

/-- The tokens in a row are the text without its blanks. -/
theorem Splits.flatMap_toList (ha : ∀ name ∈ a.atoms, IsSolid name) (h : a.Splits s ts) :
    ts.flatMap String.toList = s.filter (!isBlank ·) := by
  induction h with
  | nil => rfl
  | blank hc _ ih => simpa [hc] using ih
  | @token t s ts ht _ ih =>
      rw [List.flatMap_cons, String.toList_ofList, ih, List.filter_append,
        filter_not_isBlank_self (ht.isBlank_eq_false ha)]

/-- Where the tokens of a canonical text are in it.  In a row they are the text without its blanks,
and each is of one of the kinds at its place. -/
structure Covers (a : Alphabet) (ts : List String) (text : String) : Prop where
  join : String.join ts = String.ofList (text.toList.filter (!isBlank ·))
  place : ∀ before token after, ts = before ++ token :: after →
    ∃ left right, text.toList = left ++ (token.toList ++ right) ∧
      left.filter (!isBlank ·) = before.flatMap String.toList ∧
      right.filter (!isBlank ·) = after.flatMap String.toList ∧ a.IsTokenBefore token right

theorem covers_tokens (ha : ∀ name ∈ a.atoms, IsSolid name) (s : String) :
    a.Covers (a.tokens (.text s)) (a.canonicalText s) := by
  have hsplits := splits_split ha (a.canonical s.toList)
  have hall := hsplits.flatMap_toList ha
  rw [tokens_text ha, canonicalText]
  constructor
  case join =>
    rw [String.toList_ofList, ← hall, ← String.toList_inj, String.toList_join,
      String.toList_ofList]
  case place =>
    intro before token after hts
    rw [String.toList_ofList]
    rw [hts] at hsplits hall
    obtain ⟨left, right, heq, hleads, hafter⟩ := hsplits.exists_place
    have hright := (hafter.flatMap_toList ha).symm
    refine ⟨left, right, heq, ?_, hright, ?_⟩
    · rw [heq, List.filter_append, List.filter_append, hright,
        filter_not_isBlank_self (hleads.isBlank_eq_false ha), List.flatMap_append,
        List.flatMap_cons] at hall
      exact (List.append_cancel_right hall).symm
    · have hkind := hleads.isTokenBefore ha
      rwa [String.ofList_toList] at hkind

/-- If the alphabet can read texts, splitting drops nothing but blanks and repeats nothing, and each
token is of one of the kinds at its place in the text.  Otherwise no text is rewritten, and none
with characters is split. -/
theorem tokenize_covers (ha : ∀ name ∈ a.atoms, IsSolid name) (s : String) :
    (a.templateError? = none → ∃ ts text, a.tokenize (.text s) = .ok ts ∧
      a.normalize s = .ok text ∧ a.Covers ts text) ∧
    ∀ e, a.templateError? = some e → a.normalize s = .error e ∧
      a.tokenize (.text s) = if s = "" then .ok [] else .error e := by
  constructor
  · intro hread
    exact ⟨_, _, tokenize_of_templateError?_eq_none hread _, normalize_eq_ok hread s,
      covers_tokens ha s⟩
  · exact fun e herror =>
      ⟨normalize_eq_error_iff.2 herror, tokenize_text_of_templateError? herror s⟩

/-- A word is cut by the atoms before it and ends at a sign, which was an alias in the text. -/
theorem tokenize_covers_word :
    let a : Alphabet := { atoms := ["P", "x(", "∧"], wordSpellings := true }
    (∀ name ∈ a.atoms, IsSolid name) ∧ a.templateError? = none ∧
      a.tokenize (.text "Pfoo x(bar^Not baz %") =
        .ok (["P", "foo", "x("] ++ "bar" :: ["∧", "¬", "baz", "%"]) ∧
      a.normalize "Pfoo x(bar^Not baz %" = .ok "Pfoo x(bar∧¬ baz %" ∧
      a.Covers (["P", "foo", "x("] ++ "bar" :: ["∧", "¬", "baz", "%"]) "Pfoo x(bar∧¬ baz %" := by
  intro a
  have hsolid : ∀ name ∈ a.atoms, IsSolid name := by decide
  have hread : a.templateError? = none := templateError?_of_notMem fun _ => by decide
  have htokens : a.tokenize (.text "Pfoo x(bar^Not baz %") =
      .ok (["P", "foo", "x("] ++ "bar" :: ["∧", "¬", "baz", "%"]) := by decide +kernel
  have htext : a.normalize "Pfoo x(bar^Not baz %" = .ok "Pfoo x(bar∧¬ baz %" := by decide +kernel
  obtain ⟨ts, text, hts, hnormal, hcovers⟩ :=
    (tokenize_covers hsolid "Pfoo x(bar^Not baz %").1 hread
  obtain rfl := Except.ok.inj (htokens.symm.trans hts)
  obtain rfl := Except.ok.inj (htext.symm.trans hnormal)
  exact ⟨hsolid, hread, htokens, htext, hcovers⟩

/-- With a single backslash for an atom no text is rewritten, and a text without that atom has no
tokens to cover it. -/
theorem not_tokenize_covers :
    let a : Alphabet := { atoms := ["\\"], wordSpellings := true }
    (∀ name ∈ a.atoms, IsSolid name) ∧
      a.normalize "x" = .error ⟨['\\'], .looseBackslash, 0⟩ ∧
      a.tokenize (.text "x") = .error ⟨['\\'], .looseBackslash, 0⟩ ∧
      ¬ ∃ ts text, a.tokenize (.text "x") = .ok ts ∧ a.normalize "x" = .ok text ∧
        a.Covers ts text := by
  intro a
  refine ⟨by decide, rfl, rfl, ?_⟩
  rintro ⟨ts, text, hts, _⟩
  cases hts

end Alphabet

end Sentential
