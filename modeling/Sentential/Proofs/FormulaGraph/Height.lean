import Sentential.Proofs.FormulaGraph.Replay
import Mathlib.Data.List.Induction
/-!
# When a program can be replayed

A program is replayed up to the first connective that finds fewer values on the stack than it takes.
How many values there are is read off the instructions: each takes its operands and leaves one
value.  A program without such a connective leaves a stack of that height.
-/

namespace Sentential

/-- How many values an instruction takes from the stack. -/
def Instruction.arity : Instruction → Nat
  | .push _ => 0
  | .apply c => c.arity

namespace Program

/-- How many values are on the stack after the instructions. -/
def height (p : Program) : Nat := p.foldl (fun values i => values - i.arity + 1) 0

/-- The connective at a position finds fewer values on the stack than it takes. -/
structure MissingAt (p : Program) (k : Nat) (c : Connective) : Prop where
  getElem?_eq : p[k]? = some (.apply c)
  height_lt : height (p.take k) < c.arity

instance (p : Program) (k : Nat) (c : Connective) : Decidable (p.MissingAt k c) :=
  decidable_of_iff (p[k]? = some (.apply c) ∧ height (p.take k) < c.arity)
    ⟨fun h => ⟨h.1, h.2⟩, fun h => ⟨h.getElem?_eq, h.height_lt⟩⟩

structure FirstMissing (p : Program) (k : Nat) (c : Connective) : Prop where
  missing : p.MissingAt k c
  not_before : ∀ j < k, ∀ d, ¬ p.MissingAt j d

theorem height_concat (p : Program) (i : Instruction) :
    height (p ++ [i]) = p.height - i.arity + 1 := by
  simp [height, List.foldl_append]

variable {p q : Program} {k n position : Nat} {c : Connective} {i : Instruction}
  {stack : List Formula}

theorem MissingAt.lt_length (h : p.MissingAt k c) : k < p.length :=
  (List.getElem?_eq_some_iff.1 h.getElem?_eq).1

theorem missingAt_append_iff (hk : k < p.length) :
    MissingAt (p ++ q) k c ↔ p.MissingAt k c := by
  have hget : (p ++ q)[k]? = p[k]? := List.getElem?_append_left hk
  have htake : (p ++ q).take k = p.take k := List.take_append_of_le_length (Nat.le_of_lt hk)
  constructor
  · intro h
    exact ⟨hget ▸ h.getElem?_eq, htake ▸ h.height_lt⟩
  · intro h
    exact ⟨hget.symm ▸ h.getElem?_eq, htake.symm ▸ h.height_lt⟩

theorem missingAt_length_iff : MissingAt (p ++ .apply c :: q) p.length c ↔ p.height < c.arity := by
  have htake : (p ++ .apply c :: q).take p.length = p := List.take_left
  constructor
  · intro h
    exact htake ▸ h.height_lt
  · intro h
    exact ⟨by simp, htake.symm ▸ h⟩

/-! ## One instruction -/

theorem replay_apply_of_lt (h : stack.length < c.arity) (position : Nat) (p : Program) :
    replay position stack (.apply c :: p) = .error (.missingOperand c position) := by
  cases c with
  | not =>
      obtain rfl : stack = [] := by simpa [Connective.arity] using h
      rfl
  | binary c =>
      rcases stack with _ | ⟨g, _ | ⟨f, rest⟩⟩
      · rfl
      · rfl
      · exact absurd h (by simp [Connective.arity])

theorem exists_replay_singleton (h : i.arity ≤ stack.length) (position : Nat) :
    ∃ stack', replay position stack [i] = .ok stack' ∧
      stack'.length = stack.length - i.arity + 1 := by
  cases i with
  | push name => exact ⟨.atom name :: stack, rfl, rfl⟩
  | apply c =>
      cases c with
      | not =>
          rcases stack with _ | ⟨f, rest⟩
          · simp [Instruction.arity, Connective.arity] at h
          · exact ⟨.negation f :: rest, rfl, rfl⟩
      | binary c =>
          rcases stack with _ | ⟨g, _ | ⟨f, rest⟩⟩
          · simp [Instruction.arity, Connective.arity] at h
          · simp [Instruction.arity, Connective.arity] at h
          · exact ⟨.binary c f g :: rest, rfl, rfl⟩

/-! ## Whole programs -/

theorem replay_append (position : Nat) (stack : List Formula) (p q : Program) :
    replay position stack (p ++ q) =
      (replay position stack p).bind fun stack' => replay (position + p.length) stack' q := by
  induction p generalizing position stack with
  | nil => rfl
  | cons i p ih =>
      have hposition : position + (i :: p).length = position + 1 + p.length := by
        rw [List.length_cons]
        omega
      rw [hposition]
      cases i with
      | push name => exact ih _ _
      | apply c =>
          cases c with
          | not =>
              rcases stack with _ | ⟨f, rest⟩
              · rfl
              · exact ih _ _
          | binary c =>
              rcases stack with _ | ⟨g, _ | ⟨f, rest⟩⟩
              · rfl
              · rfl
              · exact ih _ _

theorem exists_replay_of_not_missingAt (h : ∀ k c, ¬ p.MissingAt k c) :
    ∃ stack, replay 0 [] p = .ok stack ∧ stack.length = p.height := by
  induction p using List.reverseRecOn with
  | nil => exact ⟨[], rfl, rfl⟩
  | append_singleton p i ih =>
      have hbefore : ∀ k c, ¬ MissingAt p k c := by
        intro k c hmissing
        exact h k c ((missingAt_append_iff hmissing.lt_length).2 hmissing)
      obtain ⟨stack, hreplay, hlength⟩ := ih hbefore
      have harity : i.arity ≤ stack.length := by
        cases i with
        | push name => exact Nat.zero_le _
        | apply c =>
            have hlast := h p.length c
            rw [missingAt_length_iff] at hlast
            rw [hlength]
            exact Nat.not_lt.1 hlast
      obtain ⟨stack', hlast, hlength'⟩ := exists_replay_singleton harity (0 + p.length)
      refine ⟨stack', ?_, ?_⟩
      · rw [replay_append, hreplay]
        exact hlast
      · rw [hlength', hlength, height_concat]

/-- The replay stops at the first connective without its operands. -/
theorem replay_of_firstMissing (h : p.FirstMissing k c) :
    replay 0 [] p = .error (.missingOperand c k) := by
  have hk := h.missing.lt_length
  have hlength : (p.take k).length = k := List.length_take_of_le (Nat.le_of_lt hk)
  have hget : p[k] = .apply c := (List.getElem?_eq_some_iff.1 h.missing.getElem?_eq).2
  have hsplit : p.take k ++ .apply c :: p.drop (k + 1) = p := by
    rw [← hget, List.getElem_cons_drop, List.take_append_drop]
  have hbefore : ∀ j d, ¬ MissingAt (p.take k) j d := by
    intro j d hmissing
    have hj := hmissing.lt_length
    refine h.not_before j (hlength ▸ hj) d ?_
    rw [← hsplit]
    exact (missingAt_append_iff hj).2 hmissing
  obtain ⟨stack, hreplay, hheight⟩ := exists_replay_of_not_missingAt hbefore
  have hlt : stack.length < c.arity := by
    rw [hheight]
    exact h.missing.height_lt
  have hposition : 0 + (p.take k).length = k := by rw [hlength, Nat.zero_add]
  rw [← hsplit, replay_append, hreplay, hposition]
  exact replay_apply_of_lt hlt k (p.drop (k + 1))

theorem formula_of_firstMissing (h : p.FirstMissing k c) :
    p.formula = .error (.missingOperand c k) := by
  rw [formula, replay_of_firstMissing h]
  rfl

/-- A program whose connectives all find their operands denotes a formula if one value is left, and
fails with the number of values otherwise. -/
theorem formula_of_not_missingAt (h : ∀ k c, ¬ p.MissingAt k c) :
    (p.height = 1 ∧ ∃ f, p.formula = .ok f) ∨
      (p.height ≠ 1 ∧ p.formula = .error (.valueCount p.height)) := by
  obtain ⟨stack, hreplay, hlength⟩ := exists_replay_of_not_missingAt h
  rw [formula, hreplay, ← hlength]
  rcases stack with _ | ⟨f, _ | ⟨g, rest⟩⟩
  · exact .inr ⟨by simp, rfl⟩
  · exact .inl ⟨rfl, f, rfl⟩
  · exact .inr ⟨by simp, rfl⟩

end Program

end Sentential
