import Sentential.FormulaGraph.Replay
/-!
# The programs that denote a formula

A program is replayed to a stack of formulas whose postorder programs, one after the other, are the
instructions read so far.  So a program denotes a formula exactly if it is its postorder program.
-/

namespace Sentential

namespace Program

/-- The instructions that leave a stack of formulas behind, the bottom of the stack first. -/
def unreplayed : List Formula → Program
  | [] => []
  | f :: rest => unreplayed rest ++ f.postorder

theorem unreplayed_of_replay {p : Program} {position : Nat} {stack stack' : List Formula}
    (h : replay position stack p = .ok stack') : unreplayed stack' = unreplayed stack ++ p := by
  induction p generalizing position stack with
  | nil =>
      cases h
      exact (List.append_nil _).symm
  | cons i p ih =>
      cases i with
      | push name =>
          rw [replay] at h
          rw [ih h]
          simp [unreplayed, Formula.postorder]
      | apply c =>
          cases c with
          | not =>
              cases stack with
              | nil => simp [replay] at h
              | cons f rest =>
                  rw [replay] at h
                  rw [ih h]
                  simp [unreplayed, Formula.postorder]
          | binary c =>
              rcases stack with _ | ⟨g, _ | ⟨f, rest⟩⟩
              · simp [replay] at h
              · simp [replay] at h
              · rw [replay] at h
                rw [ih h]
                simp [unreplayed, Formula.postorder]

theorem replay_postorder_append (f : Formula) (position : Nat) (stack : List Formula)
    (p : Program) :
    replay position stack (f.postorder ++ p) = replay (position + f.size) (f :: stack) p := by
  induction f generalizing position stack p with
  | atom name => rfl
  | negation f ih =>
      rw [Formula.postorder, List.append_assoc, ih]
      rfl
  | binary c f g ihf ihg =>
      rw [Formula.postorder, List.append_assoc, List.append_assoc, ihf, ihg]
      simp only [List.singleton_append, replay, Formula.size, Nat.add_assoc]

theorem formula_eq_ok_iff {p : Program} {f : Formula} : p.formula = .ok f ↔ p = f.postorder := by
  constructor
  · intro h
    rw [formula] at h
    cases hreplay : replay 0 [] p with
    | error e =>
        rw [hreplay] at h
        cases h
    | ok stack =>
        rw [hreplay] at h
        rcases stack with _ | ⟨g, _ | ⟨_, _⟩⟩
        · cases h
        · cases h
          simpa [unreplayed] using (unreplayed_of_replay hreplay).symm
        · cases h
  · rintro rfl
    have hreplay := replay_postorder_append f 0 [] []
    rw [List.append_nil] at hreplay
    rw [formula, hreplay]
    rfl

end Program

end Sentential
