import Sentential.Proofs.Refusal
import Sentential.Proofs.Text.Blank
import Sentential.Proofs.Token
/-!
# Blanks between texts

If no atom contains a blank, none of the spellings does.  So the texts before and after a run of
blanks are rewritten each on its own, and then split each on its own: a blank at the edge of a text
changes no more than the edge itself.
-/

namespace Sentential

open Text

namespace Alphabet

variable {a : Alphabet} {s t w : List Char}

theorem isSolid_of_mem_rules (ha : ∀ name ∈ a.atoms, IsSolid name) {r : Rule}
    (hr : r ∈ a.rules) : r.IsSolid := by
  have hfixed : ∀ r ∈ symbolRules ++ letterRule :: wordRules, r.IsSolid := by decide
  have hatoms : ∀ r ∈ a.atoms.map atomRule, r.IsSolid := by
    intro r hr
    obtain ⟨name, hname, rfl⟩ := List.mem_map.1 hr
    obtain ⟨hne, hsolid⟩ := ha name hname
    have hne : name.toList ≠ [] := by simpa using hne
    exact ⟨hne, pieces_atomTemplate_ne_nil hne, hsolid⟩
  unfold rules at hr
  rcases List.mem_append.1 hr with hsymbol | hword
  · exact hfixed r (by simp [hsymbol])
  · split at hword
    · rcases List.mem_append.1 hword with hword | hatom
      · exact hfixed r (by simp [hword])
      · exact hatoms r hatom
    · exact hfixed r (by simp [List.mem_singleton.1 hword])

/-! ## Rewriting -/

theorem canonical_append_of_apart (ha : ∀ name ∈ a.atoms, IsSolid name)
    (hcut : Apart unspaced s t) : a.canonical (s ++ t) = a.canonical s ++ a.canonical t :=
  substituteAll_append (fun _ hr => (isSolid_of_mem_rules ha hr).within) hcut

theorem canonical_blanks (ha : ∀ name ∈ a.atoms, IsSolid name)
    (hw : ∀ c ∈ w, isBlank c = true) : a.canonical w = w :=
  substituteAll_self fun _ hr => (isSolid_of_mem_rules ha hr).apply_blanks hw

theorem canonical_blanks_append (ha : ∀ name ∈ a.atoms, IsSolid name)
    (hw : ∀ c ∈ w, isBlank c = true) (s : List Char) :
    a.canonical (w ++ s) = w ++ a.canonical s := by
  rw [canonical_append_of_apart ha (apart_unspaced_left hw s), canonical_blanks ha hw]

/-- The texts before and after a run of blanks are rewritten each on its own. -/
theorem canonical_append_blanks_append (ha : ∀ name ∈ a.atoms, IsSolid name) (hne : w ≠ [])
    (hw : ∀ c ∈ w, isBlank c = true) (s t : List Char) :
    a.canonical (s ++ (w ++ t)) = a.canonical s ++ (w ++ a.canonical t) := by
  have hcut : Apart unspaced s (w ++ t) := by
    apply apart_unspaced_right
    intro c hc
    rw [List.head?_append_of_ne_nil w hne] at hc
    exact hw c (List.mem_of_mem_head? hc)
  rw [canonical_append_of_apart ha hcut, canonical_blanks_append ha hw]

/-! ## Splitting -/

theorem split_blanks_append (ha : ∀ name ∈ a.atoms, IsSolid name)
    (hw : ∀ c ∈ w, isBlank c = true) (s : List Char) : a.split (w ++ s) = a.split s :=
  ((splits_split ha s).blanks_append hw).split_eq ha

theorem split_append_blanks_append (ha : ∀ name ∈ a.atoms, IsSolid name) (hne : w ≠ [])
    (hw : ∀ c ∈ w, isBlank c = true) (s t : List Char) :
    a.split (s ++ (w ++ t)) = a.split s ++ a.split t := by
  have hfirst : ∀ c ∈ (w ++ t).head?, isBlank c = true := by
    intro c hc
    rw [List.head?_append_of_ne_nil w hne] at hc
    exact hw c (List.mem_of_mem_head? hc)
  have htail := (splits_split ha t).blanks_append hw
  exact ((splits_split ha s).append ha hfirst htail).split_eq ha

theorem tokens_append_blanks_append (ha : ∀ name ∈ a.atoms, IsSolid name) {s w t : String}
    (hne : w ≠ "") (hw : ∀ c ∈ w.toList, isBlank c = true) :
    a.tokens (.text (s ++ w ++ t)) = a.tokens (.text s) ++ a.tokens (.text t) := by
  have hne : w.toList ≠ [] := by simpa using hne
  rw [tokens_text ha, tokens_text ha, tokens_text ha, String.toList_append, String.toList_append,
    List.append_assoc, canonical_append_blanks_append ha hne hw,
    split_append_blanks_append ha hne hw]

theorem tokens_blanks_append_blanks (ha : ∀ name ∈ a.atoms, IsSolid name) {w s w' : String}
    (hw : ∀ c ∈ w.toList, isBlank c = true) (hw' : ∀ c ∈ w'.toList, isBlank c = true) :
    a.tokens (.text (w ++ s ++ w')) = a.tokens (.text s) := by
  have hempty : a.tokens (.text "") = [] := rfl
  have hleft : a.tokens (.text (w ++ s)) = a.tokens (.text s) := by
    rw [tokens_text ha, tokens_text ha, String.toList_append, canonical_blanks_append ha hw,
      split_blanks_append ha hw]
  by_cases hne : w' = ""
  · rw [hne, String.append_empty, hleft]
  · have hright := tokens_append_blanks_append ha (s := w ++ s) (t := "") hne hw'
    rwa [String.append_empty, hempty, List.append_nil, hleft] at hright

/-- If the alphabet can read texts, one with a run of blanks in it has the tokens of the text before
the run and then those of the text after it, and blanks at the ends of a text change nothing.
Otherwise only the text without characters has tokens, namely none. -/
theorem tokenize_append_blanks_append (ha : ∀ name ∈ a.atoms, IsSolid name) :
    (a.templateError? = none →
      (∀ s w t : String, w ≠ "" → (∀ c ∈ w.toList, isBlank c = true) →
        ∃ ts us, a.tokenize (.text s) = .ok ts ∧ a.tokenize (.text t) = .ok us ∧
          a.tokenize (.text (s ++ w ++ t)) = .ok (ts ++ us)) ∧
      ∀ w s w' : String, (∀ c ∈ w.toList, isBlank c = true) → (∀ c ∈ w'.toList, isBlank c = true) →
        ∃ ts, a.tokenize (.text s) = .ok ts ∧ a.tokenize (.text (w ++ s ++ w')) = .ok ts) ∧
    ∀ e, a.templateError? = some e →
      ∀ s, a.tokenize (.text s) = if s = "" then .ok [] else .error e := by
  refine ⟨fun hread => ⟨?_, ?_⟩, ?_⟩
  · intro s w t hne hw
    refine ⟨_, _, tokenize_of_templateError?_eq_none hread _,
      tokenize_of_templateError?_eq_none hread _, ?_⟩
    rw [tokenize_of_templateError?_eq_none hread, tokens_append_blanks_append ha hne hw]
  · intro w s w' hw hw'
    refine ⟨_, tokenize_of_templateError?_eq_none hread _, ?_⟩
    rw [tokenize_of_templateError?_eq_none hread, tokens_blanks_append_blanks ha hw hw']
  · exact fun e herror s => tokenize_text_of_templateError? herror s

/-- The blanks cut a spelling and end a word, and one of the atoms is a spelling itself. -/
theorem tokenize_append_blanks_append_cut :
    let a : Alphabet := { atoms := ["K", "Or", "+("], wordSpellings := true }
    (∀ name ∈ a.atoms, IsSolid name) ∧ a.templateError? = none ∧
      a.tokenize (.text ("k and<-" ++ "\t\u00a0" ++ ">oR+(v Kv")) =
        .ok (["K", "∧", "<", "-"] ++ [">", "∨", "+(", "∨", "K", "∨"]) := by
  intro a
  have hsolid : ∀ name ∈ a.atoms, IsSolid name := by decide
  have hread : a.templateError? = none := templateError?_of_notMem fun _ => by decide
  have hleft : a.tokenize (.text "k and<-") = .ok ["K", "∧", "<", "-"] := by decide +kernel
  have hright : a.tokenize (.text ">oR+(v Kv") = .ok [">", "∨", "+(", "∨", "K", "∨"] := by
    decide +kernel
  have hblanks : "\t\u00a0".toList.all isBlank = true := by decide
  obtain ⟨ts, us, hts, hus, happend⟩ := ((tokenize_append_blanks_append hsolid).1 hread).1
    "k and<-" "\t\u00a0" ">oR+(v Kv" (by decide) (List.all_eq_true.1 hblanks)
  cases hleft.symm.trans hts
  cases hright.symm.trans hus
  exact ⟨hsolid, hread, happend⟩

/-- With a single backslash for an atom a blank between two texts without characters is refused. -/
theorem not_tokenize_append_blanks_append :
    let a : Alphabet := { atoms := ["\\"], wordSpellings := true }
    (∀ name ∈ a.atoms, IsSolid name) ∧ a.tokenize (.text "") = .ok [] ∧
      (∀ c ∈ " ".toList, isBlank c = true) ∧
      a.tokenize (.text ("" ++ " " ++ "")) = .error ⟨['\\'], .looseBackslash, 0⟩ :=
  ⟨by decide, rfl, List.all_eq_true.1 (by decide), by decide⟩

end Alphabet

end Sentential
