import Sentential.Text.WordChar
import Mathlib.Data.List.SplitBy
/-!
# Runs of a text

A text is cut where a word begins or ends.  A word is cut further at single letters, which leaves
pieces that may be empty.
-/

namespace Sentential.Text

/-- The maximal runs of word characters and of other characters. -/
def runs (s : List Char) : List (List Char) := s.splitBy fun c d => isWord c == isWord d

variable {s t : List Char}

theorem flatten_runs (s : List Char) : (runs s).flatten = s := List.flatten_splitBy _ s

theorem nil_notMem_runs (s : List Char) : [] ∉ runs s := List.nil_notMem_splitBy _ s

/-- Where a run ends the next character is of the other kind. -/
theorem isChain_runs (s : List Char) :
    (runs s).IsChain fun t u => ∀ d ∈ t.getLast?, ∀ e ∈ u.head?, isWord d ≠ isWord e := by
  refine (List.isChain_getLast_head_splitBy _ s).imp ?_
  rintro t u ⟨ht, hu, hends⟩ d hd e he
  rw [List.getLast?_eq_some_getLast ht, Option.mem_some_iff] at hd
  rw [List.head?_eq_some_head hu, Option.mem_some_iff] at he
  rw [hd, he] at hends
  exact beq_eq_false_iff_ne.1 hends

theorem isWord_or_not_of_mem_runs (h : t ∈ runs s) :
    (∀ c ∈ t, isWord c = true) ∨ ∀ c ∈ t, isWord c = false := by
  have hchain : t.IsChain fun c d => (isWord c == isWord d) = true :=
    List.isChain_of_mem_splitBy h
  have hne : t ≠ [] := by
    rintro rfl
    exact nil_notMem_runs s h
  have hall : ∀ c ∈ t, isWord c = isWord (t.head hne) := by
    apply hchain.induction
    · intro c d hcd hc
      rw [← beq_iff_eq.1 hcd, hc]
    · exact fun _ => rfl
  cases hfirst : isWord (t.head hne) with
  | true => exact .inl fun c hc => (hall c hc).trans hfirst
  | false => exact .inr fun c hc => (hall c hc).trans hfirst

/-! ## Pieces between single letters -/

variable {p : Char → Bool} {g : Char}

theorem mem_of_mem_splitOnP (ht : t ∈ s.splitOnP p) : ∀ c ∈ t, c ∈ s := by
  induction s generalizing t with
  | nil =>
      rw [List.splitOnP_nil, List.mem_singleton] at ht
      simp [ht]
  | cons d s ih =>
      obtain ⟨first, rest, hsplit⟩ := List.exists_cons_of_ne_nil (List.splitOnP_ne_nil p s)
      rw [List.splitOnP_cons_eq_if_modifyHead, hsplit, List.modifyHead_cons] at ht
      rw [hsplit] at ih
      split at ht
      · rcases List.mem_cons.1 ht with rfl | ht
        · simp
        · exact fun c hc => List.mem_cons_of_mem d (ih ht c hc)
      · rcases List.mem_cons.1 ht with rfl | ht
        · intro c hc
          rcases List.mem_cons.1 hc with rfl | hc
          · simp
          · exact List.mem_cons_of_mem d (ih (by simp) c hc)
        · exact fun c hc => List.mem_cons_of_mem d (ih (by simp [ht]) c hc)

/-- Replacing single letters by a sign puts the sign between the pieces. -/
theorem flatMap_eq_intercalate_splitOnP (p : Char → Bool) (g : Char) (s : List Char) :
    (s.flatMap fun c => if p c then [g] else [c]) = [g].intercalate (s.splitOnP p) := by
  induction s with
  | nil => rfl
  | cons c s ih =>
      rw [List.flatMap_cons, ih, List.splitOnP_cons_eq_if_modifyHead]
      cases p c with
      | true =>
          rw [if_pos rfl, if_pos rfl, List.intercalate_cons_of_ne_nil (List.splitOnP_ne_nil p s),
            List.nil_append]
      | false =>
          obtain ⟨first, rest, hsplit⟩ := List.exists_cons_of_ne_nil (List.splitOnP_ne_nil p s)
          rw [if_neg Bool.false_ne_true, if_neg Bool.false_ne_true, hsplit, List.modifyHead_cons,
            List.intercalate_cons_cons_left, List.singleton_append]

end Sentential.Text
