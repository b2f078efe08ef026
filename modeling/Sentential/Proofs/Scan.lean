import Sentential.Proofs.Spelling
import Sentential.Proofs.Text.Scan
/-!
# One scan for all signs

The signs are replaced in several passes over a text, and one of them ends in another.  No sign
begins where a sign of a later pass goes on, so the passes do what one scan does that tries the
longer signs first at each place.  After it no sign is left, and a second scan changes nothing.
-/

namespace Sentential

open Text

/-- One scan from left to right.  It replaces the arrows, then the signs of one character that are
listed, and keeps any other character. -/
def scanned (glyphs : List (Char × Char)) : List Char → List Char
  | [] => []
  | '<' :: '-' :: '>' :: s => '↔' :: scanned glyphs s
  | '<' :: '=' :: '>' :: s => '↔' :: scanned glyphs s
  | '-' :: '>' :: s => '→' :: scanned glyphs s
  | c :: s => (glyphs.lookup c).getD c :: scanned glyphs s

/-- The arrows, the longer ones first. -/
def arrowRules : List Rule := [
  { spelling := "<->".toList, replacement := .literal ['↔'] },
  { spelling := "<=>".toList, replacement := .literal ['↔'] },
  { spelling := "->".toList, replacement := .literal ['→'] }]

/-- A sign of one character is written as a glyph. -/
def glyphRule (entry : Char × Char) : Rule :=
  { spelling := [entry.1], replacement := .literal [entry.2] }

theorem symbolRules_eq : symbolRules = arrowRules ++ [('~', '¬'), ('^', '∧')].map glyphRule := rfl

theorem symbolRules_append_letterRule :
    symbolRules ++ [letterRule] =
      arrowRules ++ [('~', '¬'), ('^', '∧'), ('v', '∨')].map glyphRule := rfl

/-! ## The passes for signs -/

theorem orderly_of_isSignRule {rules : List Rule} (hrules : ∀ r ∈ rules, IsSignRule r)
    (hordered : rules.Pairwise fun r q =>
      (r.spelling.head?.all fun c => !q.spelling.tail.contains c) = true) : Orderly rules where
  exact := fun r hr => (hrules r hr).toExact
  sign := by
    intro r hr
    obtain ⟨c, hglyph⟩ := (hrules r hr).glyph
    exact ⟨c.glyph, hglyph, fun q hq => (hrules q hq).noGlyph c⟩
  ordered := by
    refine hordered.imp fun {r q} h c hc => ?_
    simpa using Option.all_eq_true _ _ |>.1 h c hc

theorem orderly_symbolRules : Orderly symbolRules :=
  orderly_of_isSignRule (fun _ hr => isSignRule_of_mem_symbolRules hr) (by decide)

theorem orderly_symbolRules_append_letterRule : Orderly (symbolRules ++ [letterRule]) := by
  refine orderly_of_isSignRule (fun r hr => ?_) (by decide)
  rcases List.mem_append.1 hr with hr | hr
  · exact isSignRule_of_mem_symbolRules hr
  · exact List.mem_singleton.1 hr ▸ isSignRule_letterRule

section

variable {glyphs : List (Char × Char)} {c : Char} {s : List Char}

/-- A character with which no arrow begins is replaced if it is listed. -/
theorem substituteAll_cons_of_no_arrow (hrules : Orderly (arrowRules ++ glyphs.map glyphRule))
    (h : ∀ r ∈ arrowRules, ¬ r.spelling <+: c :: s) :
    substituteAll (arrowRules ++ glyphs.map glyphRule) (c :: s) =
      (glyphs.lookup c).getD c :: substituteAll (arrowRules ++ glyphs.map glyphRule) s := by
  have hother : ∀ entry : Char × Char, (c != entry.1) = true →
      ¬ (glyphRule entry).spelling <+: c :: s := by
    intro entry hne hpre
    obtain ⟨rfl, _⟩ := List.cons_prefix_cons.1 hpre
    simp at hne
  cases hlookup : glyphs.lookup c with
  | none =>
      apply hrules.substituteAll_cons
      intro r hr
      rcases List.mem_append.1 hr with hr | hr
      · exact h r hr
      · obtain ⟨entry, hentry, rfl⟩ := List.mem_map.1 hr
        exact hother entry (List.lookup_eq_none_iff.1 hlookup entry hentry)
  | some g =>
      obtain ⟨before, after, rfl, hbefore⟩ := List.lookup_eq_some_iff.1 hlookup
      rw [List.map_append, List.map_cons, ← List.append_assoc] at hrules ⊢
      refine hrules.substituteAll_spelling_append (q := glyphRule (c, g)) fun r hr => ?_
      rcases List.mem_append.1 hr with hr | hr
      · exact h r hr
      · obtain ⟨entry, hentry, rfl⟩ := List.mem_map.1 hr
        exact hother entry (hbefore entry hentry)

/-- The passes for signs are one scan. -/
theorem substituteAll_eq_scanned (hrules : Orderly (arrowRules ++ glyphs.map glyphRule))
    (s : List Char) : substituteAll (arrowRules ++ glyphs.map glyphRule) s = scanned glyphs s := by
  have harrow : ∀ before q after, arrowRules = before ++ q :: after → ∀ s,
      (∀ r ∈ before, ¬ r.spelling <+: q.spelling ++ s) →
      substituteAll (arrowRules ++ glyphs.map glyphRule) (q.spelling ++ s) =
        q.written q.spelling ++ substituteAll (arrowRules ++ glyphs.map glyphRule) s := by
    intro before q after heq s hfirst
    rw [heq, List.append_assoc, List.cons_append] at hrules ⊢
    exact hrules.substituteAll_spelling_append hfirst
  fun_induction scanned glyphs s with
  | case1 => exact substituteAll_self fun r _ => r.apply_nil
  | case2 s ih =>
      rw [← ih]
      exact harrow [] _ _ rfl s (by simp)
  | case3 s ih =>
      rw [← ih]
      exact harrow [_] _ _ rfl s (by simp)
  | case4 s ih =>
      rw [← ih]
      exact harrow [_, _] _ _ rfl s (by simp)
  | case5 c s hiff hequals himplies ih =>
      rw [substituteAll_cons_of_no_arrow hrules, ih]
      intro r hr
      simp only [arrowRules, List.mem_cons, List.not_mem_nil, or_false] at hr
      rcases hr with rfl | rfl | rfl
      all_goals
        rintro ⟨t, heq⟩
        obtain ⟨rfl, rfl⟩ := List.cons.inj heq
      · exact hiff t rfl rfl
      · exact hequals t rfl rfl
      · exact himplies t rfl rfl

end

namespace Alphabet

variable {a : Alphabet}

theorem canonical_eq_scanned (hwords : a.wordSpellings = false) (s : List Char) :
    a.canonical s = scanned [('~', '¬'), ('^', '∧'), ('v', '∨')] s := by
  have hrules : a.rules = symbolRules ++ [letterRule] := by
    rw [rules, hwords, if_neg Bool.false_ne_true]
  have horderly := orderly_symbolRules_append_letterRule
  rw [symbolRules_append_letterRule] at hrules horderly
  rw [canonical, hrules, substituteAll_eq_scanned horderly]

theorem exists_rule_of_sign (hwords : a.wordSpellings = false) :
    ∀ sign ∈ ["<->", "<=>", "->", "~", "^", "v"], ∃ r ∈ a.rules, r.spelling = sign.toList := by
  have hspellings : (symbolRules ++ [letterRule]).map Rule.spelling =
      ["<->", "<=>", "->", "~", "^", "v"].map String.toList := rfl
  intro sign hsign
  rw [rules, hwords, if_neg Bool.false_ne_true, ← List.mem_map, hspellings]
  exact List.mem_map_of_mem hsign

/-- Without word spellings a text is rewritten in one scan.  No sign is left in it, and rewriting it
once more changes nothing. -/
theorem canonicalText_eq_scanned (hwords : a.wordSpellings = false) (s : String) :
    a.canonicalText s =
        String.ofList (scanned [('~', '¬'), ('^', '∧'), ('v', '∨')] s.toList) ∧
      a.canonicalText (a.canonicalText s) = a.canonicalText s ∧
      ∀ sign ∈ ["<->", "<=>", "->", "~", "^", "v"],
        ¬ sign.toList <:+: (a.canonicalText s).toList := by
  unfold canonicalText
  rw [String.toList_ofList]
  refine ⟨by rw [canonical_eq_scanned hwords], ?_, ?_⟩
  · rw [canonical_of_isInfix hwords List.infix_rfl]
  · intro sign hsign
    obtain ⟨r, hr, hspelling⟩ := exists_rule_of_sign hwords sign hsign
    rw [← hspelling]
    exact not_infix_substituteAll (fun q hq => isSignRule_of_mem_rules hwords hq) hr s.toList

/-- Arrows that share characters are found from the left. -/
theorem canonicalText_eq_scanned_overlapping :
    canonicalText { atoms := ["x->", "v"] } "<<->>-><=->~^Vv" = "<↔>→<=→¬∧V∨" ∧
      canonicalText { atoms := ["x->", "v"] } "<↔>→<=→¬∧V∨" = "<↔>→<=→¬∧V∨" ∧
      ¬ "->".toList <:+: "<↔>→<=→¬∧V∨".toList := by
  obtain ⟨hscan, htwice, hnone⟩ :=
    canonicalText_eq_scanned (a := { atoms := ["x->", "v"] }) rfl "<<->>-><=->~^Vv"
  have hscanned : String.ofList (scanned [('~', '¬'), ('^', '∧'), ('v', '∨')]
      "<<->>-><=->~^Vv".toList) = "<↔>→<=→¬∧V∨" := by decide +kernel
  rw [hscan.trans hscanned] at htwice hnone
  exact ⟨hscan.trans hscanned, htwice, hnone "->" (by decide)⟩

end Alphabet

end Sentential
