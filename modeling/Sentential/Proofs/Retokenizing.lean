import Sentential.Proofs.Spacing
/-!
# Splitting tokens that have been joined

Without word spellings a canonical text contains nothing that would be rewritten, and this holds of
its tokens.  A space between them joins nothing, and it ends a token where it ended before.  So the
tokens of a text, joined by spaces, are found again.
-/

namespace Sentential

open Text

theorem toList_joinTokens_singleton (token : String) :
    (joinTokens [token]).toList = token.toList := by
  simp [joinTokens]

theorem toList_joinTokens_cons_cons (token next : String) (ts : List String) :
    (joinTokens (token :: next :: ts)).toList =
      token.toList ++ ' ' :: (joinTokens (next :: ts)).toList := by
  simp [joinTokens, String.intercalate_cons_of_ne_nil]

namespace Alphabet

variable {a : Alphabet} {s t : List Char} {ts : List String}

theorem canonical_append_space (ha : ∀ name ∈ a.atoms, IsSolid name) (s t : List Char) :
    a.canonical (s ++ ' ' :: t) = a.canonical s ++ ' ' :: a.canonical t := by
  have hblank : ∀ c ∈ [' '], isBlank c = true := List.forall_mem_singleton.2 (by decide)
  exact canonical_append_blanks_append ha (List.cons_ne_nil ' ' []) hblank s t

/-- Tokens that are joined by spaces are rewritten each on its own, and found again as what they
have become if that is a token. -/
theorem splits_canonical_joinTokens (ha : ∀ name ∈ a.atoms, IsSolid name) {f : String → String}
    (h : ∀ token ∈ ts, a.canonical token.toList = (f token).toList ∧
      ∃ s, a.Leads (f token).toList s) :
    a.Splits (a.canonical (joinTokens ts).toList) (ts.map f) := by
  induction ts with
  | nil =>
      have hnil : (joinTokens []).toList = [] := by simp [joinTokens]
      rw [hnil, canonical_nil]
      exact .nil
  | cons token ts ih =>
      obtain ⟨hcanonical, s, hleads⟩ := h token (by simp)
      have hrest := ih fun t ht => h t (by simp [ht])
      cases ts with
      | nil =>
          have hend : a.Leads (f token).toList [] := hleads.of_blank ha (by simp)
          rw [toList_joinTokens_singleton, hcanonical]
          simpa using Splits.token hend .nil
      | cons next ts =>
          have hspace : a.Leads (f token).toList
              (' ' :: a.canonical (joinTokens (next :: ts)).toList) := by
            apply hleads.of_blank ha
            intro c hc
            cases hc
            decide
          rw [toList_joinTokens_cons_cons, canonical_append_space ha, hcanonical]
          simpa using Splits.token hspace (.blank (by decide) hrest)

/-- The tokens of a text in which nothing is to be rewritten are found again. -/
theorem Splits.joined (ha : ∀ name ∈ a.atoms, IsSolid name) (h : a.Splits s ts)
    (hfixed : ∀ t, t <:+: s → a.canonical t = t) :
    a.Splits (a.canonical (joinTokens ts).toList) ts := by
  have hsplits := splits_canonical_joinTokens (f := id) ha fun token htoken =>
    have hleads := h.exists_leads htoken
    ⟨hfixed token.toList hleads.1, hleads.2⟩
  rwa [List.map_id] at hsplits

/-- Without word spellings the tokens of any text, joined by spaces, have the same tokens. -/
theorem tokens_joinTokens (hwords : a.wordSpellings = false)
    (hatoms : ∀ name ∈ a.atoms, name ≠ "" ∧ ∀ c ∈ name.toList, isBlank c = false) (s : String) :
    a.tokens (.text (joinTokens (a.tokens (.text s)))) = a.tokens (.text s) := by
  rw [tokens_text hatoms s, tokens_text hatoms]
  have hsplits := splits_split hatoms (a.canonical s.toList)
  have hjoined := hsplits.joined hatoms fun t ht => canonical_of_isInfix hwords ht
  exact hjoined.split_eq hatoms

/-- Atoms that begin with one another or look like signs, in a text that is no formula. -/
theorem tokens_joinTokens_overlapping :
    tokens { atoms := ["A", "AB", "v", "∧", "x("] } (.text "ABv<->x(y &ABC1") =
        ["A", "B", "∨", "↔", "x(", "y", "&", "A", "BC1"] ∧
      tokens { atoms := ["A", "AB", "v", "∧", "x("] }
        (.text (joinTokens ["A", "B", "∨", "↔", "x(", "y", "&", "A", "BC1"])) =
        ["A", "B", "∨", "↔", "x(", "y", "&", "A", "BC1"] := by
  have htokens : tokens { atoms := ["A", "AB", "v", "∧", "x("] } (.text "ABv<->x(y &ABC1") =
      ["A", "B", "∨", "↔", "x(", "y", "&", "A", "BC1"] := by decide +kernel
  have hsolid : ∀ name ∈ ["A", "AB", "v", "∧", "x("],
      name ≠ "" ∧ name.toList.all (!isBlank ·) = true := by decide
  refine ⟨htokens, ?_⟩
  rw [← htokens]
  refine tokens_joinTokens rfl (fun name hname => ⟨(hsolid name hname).1, fun c hc => ?_⟩) _
  simpa using List.all_eq_true.1 (hsolid name hname).2 c hc

end Alphabet

end Sentential
