import Sentential.Text.Template
/-!
# Reading templates

A text without backslashes is the template in which every character stands for itself.  Whatever
else is read stands for something: a template that is not empty has a part.
-/

namespace Sentential.Text.Template

variable {s : List Char} {m : Mark} {rest : List Mark} {start : Nat} {pieces : List Piece}

/-! ## Texts without backslashes -/

theorem marks_of_notMem (h : '\\' ∉ s) : marks s = s.map .plain := by
  induction s with
  | nil => rfl
  | cons c s ih =>
      obtain ⟨hc, hs⟩ := not_or.1 (mt List.mem_cons.2 h)
      rw [marks.eq_def]
      simp only [if_neg (Ne.symm hc), ih hs, List.map_cons]

theorem loose_ne_map_plain (s : List Char) : s.map Mark.plain ≠ [.loose] := by
  cases s <;> simp

theorem readFrom_map_plain (s : List Char) (start : Nat) :
    readFrom 0 start (s.map .plain) = .ok (s.map .char) := by
  induction s generalizing start with
  | nil => rfl
  | cons c s ih =>
      have hgroup : group start (.plain c) (s.map .plain) = ⟨0, .ok [.char c]⟩ := rfl
      rw [List.map_cons, readFrom, hgroup]
      simp only [List.drop_zero, if_neg (loose_ne_map_plain s), ih]
      rfl

theorem read_of_notMem (h : '\\' ∉ s) : read s = .ok (literal s) := by
  rw [read, marks_of_notMem h, readFrom_map_plain]
  rfl

/-! ## Templates that are not empty -/

theorem exists_of_bind_eq_ok {ε α β : Type} {x : Except ε α} {f : α → Except ε β} {b : β}
    (h : x >>= f = .ok b) : ∃ a, x = .ok a ∧ f a = .ok b := by
  cases x with
  | ok a => exact ⟨a, rfl, h⟩
  | error e => cases h

theorem namedGroup_ne_nil {name : List Char} (h : namedGroup name = .ok pieces) : pieces ≠ [] := by
  unfold namedGroup at h
  split at h
  · cases h
  · split at h <;> cases h
    exact List.cons_ne_nil _ _

theorem referenceGroup_ne_nil (h : (referenceGroup start rest).outcome = .ok pieces) :
    pieces ≠ [] := by
  unfold referenceGroup at h
  split at h
  · simp only at h
    split at h
    · cases h
    · split at h
      · cases hname : namedGroup _ with
        | ok pieces' =>
            rw [hname] at h
            cases h
            exact namedGroup_ne_nil hname
        | error fault =>
            rw [hname] at h
            cases h
      · cases h
  · cases h

theorem numberGroup_ne_nil {first : Char}
    (h : (numberGroup start first rest).outcome = .ok pieces) :
    pieces ≠ [] := by
  unfold numberGroup at h
  split at h
  · cases h
    exact List.cons_ne_nil _ _
  · simp only at h
    split at h
    · split at h <;> cases h
      exact List.cons_ne_nil _ _
    · cases h

theorem escaped_ne_nil {c : Char} (h : escaped start c = .ok pieces) : pieces ≠ [] := by
  unfold escaped at h
  split at h
  · cases h
    exact List.cons_ne_nil _ _
  · split at h <;> cases h
    exact List.cons_ne_nil _ _

theorem group_ne_nil (h : (group start m rest).outcome = .ok pieces) : pieces ≠ [] := by
  cases m with
  | plain c =>
      cases h
      exact List.cons_ne_nil _ _
  | loose => cases h
  | escape c =>
      simp only [group] at h
      split at h
      · exact referenceGroup_ne_nil h
      · split at h
        · exact numberGroup_ne_nil h
        · exact escaped_ne_nil h

theorem readFrom_ne_nil (h : readFrom 0 start (m :: rest) = .ok pieces) : pieces ≠ [] := by
  rw [readFrom] at h
  simp only at h
  split at h
  · cases h
  · obtain ⟨first, hfirst, h⟩ := exists_of_bind_eq_ok h
    obtain ⟨others, -, h⟩ := exists_of_bind_eq_ok h
    cases h
    exact List.append_ne_nil_of_left_ne_nil (group_ne_nil hfirst) others

theorem marks_ne_nil (h : s ≠ []) : marks s ≠ [] := by
  obtain ⟨c, s, rfl⟩ := List.exists_cons_of_ne_nil h
  unfold marks
  split
  · split <;> exact List.cons_ne_nil _ _
  · exact List.cons_ne_nil _ _

theorem pieces_ne_nil_of_read {t : Template} (hne : s ≠ []) (h : read s = .ok t) :
    t.pieces ≠ [] := by
  obtain ⟨m, rest, hmarks⟩ := List.exists_cons_of_ne_nil (marks_ne_nil hne)
  rw [read, hmarks] at h
  cases hread : readFrom 0 0 (m :: rest) with
  | error e =>
      rw [hread] at h
      cases h
  | ok pieces =>
      rw [hread] at h
      cases h
      exact readFrom_ne_nil hread

end Sentential.Text.Template
