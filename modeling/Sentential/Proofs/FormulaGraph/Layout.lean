import Sentential.FormulaGraph.Layout
import Sentential.Proofs.FormulaGraph.Tree
import Mathlib.Data.Rat.Cast.Order
import Mathlib.Logic.Relation
import Mathlib.Tactic.Linarith
/-!
# No two nodes of a layout overlap

The occurrences of atoms in a subtree fill an interval of whole coordinates, and all of the subtree
stands between the first and the last of them.  Nodes of equal depth have subtrees without common
atoms, so their intervals are apart, and so are the nodes.
-/

namespace Sentential

namespace Formula

theorem length_place (mean : Rat → Rat → Rat) (f : Formula) (leaf depth : Nat) :
    (f.place mean leaf depth).1.length = f.size := by
  induction f generalizing leaf depth with
  | atom name => rfl
  | negation f ih => simp [place, size, ih]
  | binary c f g ihf ihg => simp [place, size, ihf, ihg, Nat.add_assoc]

/-- The places of the nodes of a formula whose leftmost atom stands at `leaf`. -/
def spots (f : Formula) (leaf depth : Nat) : List Spot :=
  (f.place (fun x y => (x + y) / 2) leaf depth).1

/-- The horizontal coordinate of the main connective. -/
def centre (f : Formula) (leaf depth : Nat) : Rat :=
  (f.place (fun x y => (x + y) / 2) leaf depth).2

section Equations

variable (name : String) (c : BinaryConnective) (f g : Formula) (leaf depth : Nat)

theorem spots_atom : (atom name).spots leaf depth = [⟨leaf, -depth⟩] := rfl

theorem centre_atom : (atom name).centre leaf depth = leaf := rfl

theorem spots_negation : (negation f).spots leaf depth =
    f.spots leaf (depth + 1) ++ [⟨f.centre leaf (depth + 1), -depth⟩] := rfl

theorem centre_negation : (negation f).centre leaf depth = f.centre leaf (depth + 1) := rfl

theorem spots_binary : (binary c f g).spots leaf depth =
    f.spots leaf (depth + 1) ++ g.spots (leaf + f.leafCount) (depth + 1) ++
      [⟨(f.centre leaf (depth + 1) + g.centre (leaf + f.leafCount) (depth + 1)) / 2, -depth⟩] :=
  rfl

theorem centre_binary : (binary c f g).centre leaf depth =
    (f.centre leaf (depth + 1) + g.centre (leaf + f.leafCount) (depth + 1)) / 2 := rfl

@[simp] theorem length_spots : (f.spots leaf depth).length = f.size := length_place _ f leaf depth

theorem getElem?_spots_operand {f : Formula} {k : Nat} (hk : k < f.size) :
    ((negation f).spots leaf depth)[k]? = (f.spots leaf (depth + 1))[k]? := by
  rw [spots_negation, List.getElem?_append_left (by rwa [length_spots])]

theorem getElem?_spots_left {f : Formula} {k : Nat} (hk : k < f.size) :
    ((binary c f g).spots leaf depth)[k]? = (f.spots leaf (depth + 1))[k]? := by
  rw [spots_binary, List.append_assoc, List.getElem?_append_left (by rwa [length_spots])]

theorem getElem?_spots_right {g : Formula} {k : Nat} (hk : k < g.size) :
    ((binary c f g).spots leaf depth)[f.size + k]? =
      (g.spots (leaf + f.leafCount) (depth + 1))[k]? := by
  rw [spots_binary, List.append_assoc, ← f.length_spots leaf (depth + 1),
    List.getElem?_append_right (Nat.le_add_right _ _), Nat.add_sub_cancel_left,
    List.getElem?_append_left (by rwa [length_spots])]

theorem leafCount_pos : 0 < f.leafCount := by
  induction f with
  | atom name => exact Nat.one_pos
  | negation f ih => exact ih
  | binary c f g ihf _ => exact Nat.add_pos_left ihf _

end Equations

theorem exists_getElem?_spots {f : Formula} {k : Nat} (hk : k < f.size) (leaf depth : Nat) :
    ∃ s, (f.spots leaf depth)[k]? = some s :=
  ⟨_, List.getElem?_eq_getElem (by rwa [length_spots])⟩

/-! ## Intervals -/

variable {f : Formula} {leaf depth : Nat} {s : Spot}

/-- The main connective stands between the first and the last atom. -/
theorem centre_mem (f : Formula) (leaf depth : Nat) :
    (leaf : Rat) ≤ f.centre leaf depth ∧ f.centre leaf depth + 1 ≤ leaf + f.leafCount := by
  induction f generalizing leaf depth with
  | atom name => simp [centre_atom, leafCount]
  | negation f ih =>
      rw [centre_negation]
      exact ih leaf (depth + 1)
  | binary c f g ihf ihg =>
      have hf := ihf leaf (depth + 1)
      have hg := ihg (leaf + f.leafCount) (depth + 1)
      have hfpos : (1 : Rat) ≤ f.leafCount := by exact_mod_cast f.leafCount_pos
      have hgpos : (1 : Rat) ≤ g.leafCount := by exact_mod_cast g.leafCount_pos
      rw [centre_binary, leafCount]
      push_cast at hg ⊢
      constructor <;> linarith

/-- All nodes stand between the first and the last atom, and none above the main connective. -/
theorem spot_mem (h : s ∈ f.spots leaf depth) :
    (leaf : Rat) ≤ s.x ∧ s.x + 1 ≤ leaf + f.leafCount ∧ s.y ≤ -depth := by
  induction f generalizing leaf depth with
  | atom name =>
      rw [spots_atom, List.mem_singleton] at h
      subst h
      simp [leafCount]
  | negation f ih =>
      rw [spots_negation, List.mem_append, List.mem_singleton] at h
      rcases h with h | rfl
      · have hs := ih h
        push_cast at hs
        exact ⟨hs.1, hs.2.1, by linarith⟩
      · exact ⟨(f.centre_mem leaf (depth + 1)).1, (f.centre_mem leaf (depth + 1)).2, le_refl _⟩
  | binary c f g ihf ihg =>
      have hcentre := (binary c f g).centre_mem leaf depth
      have hfpos : (1 : Rat) ≤ f.leafCount := by exact_mod_cast f.leafCount_pos
      have hgpos : (1 : Rat) ≤ g.leafCount := by exact_mod_cast g.leafCount_pos
      rw [spots_binary, List.mem_append, List.mem_append, List.mem_singleton] at h
      rcases h with (h | h) | rfl
      · have hs := ihf h
        rw [leafCount]
        push_cast at hs ⊢
        exact ⟨hs.1, by linarith, by linarith⟩
      · have hs := ihg h
        rw [leafCount]
        push_cast at hs ⊢
        exact ⟨by linarith, by linarith, by linarith⟩
      · exact ⟨hcentre.1, hcentre.2, le_refl _⟩

/-- Of two nodes on one level the later one stands at least one further to the right. -/
theorem pairwise_spots (f : Formula) (leaf depth : Nat) :
    (f.spots leaf depth).Pairwise fun s t => s.y = t.y → s.x + 1 ≤ t.x := by
  induction f generalizing leaf depth with
  | atom name => exact List.pairwise_singleton _ _
  | negation f ih =>
      rw [spots_negation, List.pairwise_append]
      refine ⟨ih leaf (depth + 1), List.pairwise_singleton _ _, ?_⟩
      intro s hs t ht heq
      obtain rfl := List.mem_singleton.1 ht
      have hy := (spot_mem hs).2.2
      push_cast at hy heq
      linarith
  | binary c f g ihf ihg =>
      rw [spots_binary, List.pairwise_append, List.pairwise_append]
      refine ⟨⟨ihf leaf (depth + 1), ihg (leaf + f.leafCount) (depth + 1), ?_⟩,
        List.pairwise_singleton _ _, ?_⟩
      · intro s hs t ht _
        have hleft := (spot_mem hs).2.1
        have hright := (spot_mem ht).1
        push_cast at hright
        linarith
      · intro s hs t ht heq
        obtain rfl := List.mem_singleton.1 ht
        have hy : s.y ≤ -(depth + 1) := by
          rcases List.mem_append.1 hs with hs | hs
          · exact_mod_cast (spot_mem hs).2.2
          · exact_mod_cast (spot_mem hs).2.2
        linarith

theorem nodup_spots (f : Formula) (leaf depth : Nat) : (f.spots leaf depth).Nodup := by
  refine (f.pairwise_spots leaf depth).imp ?_
  rintro s t hst rfl
  have := hst rfl
  linarith

theorem getElem?_spots_root (f : Formula) (leaf depth : Nat) :
    (f.spots leaf depth)[f.size - 1]? = some ⟨f.centre leaf depth, -depth⟩ := by
  cases f with
  | atom name => rfl
  | negation f =>
      rw [spots_negation, size, Nat.add_sub_cancel, ← f.length_spots leaf (depth + 1),
        List.getElem?_concat_length]
      rfl
  | binary c f g =>
      rw [spots_binary, size, Nat.add_sub_cancel, ← f.length_spots leaf (depth + 1),
        ← g.length_spots (leaf + f.leafCount) (depth + 1), ← List.length_append,
        List.getElem?_concat_length]
      rfl

/-- Only the main connective stands on the highest level. -/
theorem y_le_of_lt {k : Nat} (hk : k + 1 < f.size) (h : (f.spots leaf depth)[k]? = some s) :
    s.y ≤ -(depth + 1) := by
  cases f with
  | atom name => exact absurd hk (by simp [size])
  | negation f =>
      rw [getElem?_spots_operand leaf depth (Nat.lt_of_succ_lt_succ hk)] at h
      exact_mod_cast (spot_mem (List.mem_of_getElem? h)).2.2
  | binary c f g =>
      rcases Nat.lt_or_ge k f.size with hlt | hge
      · rw [getElem?_spots_left c g leaf depth hlt] at h
        exact_mod_cast (spot_mem (List.mem_of_getElem? h)).2.2
      · obtain ⟨j, rfl⟩ := Nat.exists_eq_add_of_le hge
        rw [size] at hk
        rw [getElem?_spots_right c f leaf depth (by omega)] at h
        exact_mod_cast (spot_mem (List.mem_of_getElem? h)).2.2

end Formula

/-! ## Atoms -/

namespace Program

/-- How many atoms are pushed before a position. -/
def pushesBefore (p : Program) (k : Nat) : Nat := (pushed (p.take k)).length

theorem pushesBefore_append_left {p : Program} {k : Nat} (hk : k ≤ p.length) (q : Program) :
    pushesBefore (p ++ q) k = p.pushesBefore k := by
  rw [pushesBefore, List.take_append_of_le_length hk]
  rfl

theorem pushesBefore_append_right (p q : Program) (k : Nat) :
    pushesBefore (p ++ q) (p.length + k) = p.pushed.length + q.pushesBefore k := by
  rw [pushesBefore, List.take_length_add_append, pushed_append, List.length_append]
  rfl

end Program

namespace Formula

open Program

variable {f : Formula} {leaf depth k : Nat} {s : Spot} {name : String}

theorem length_pushed_postorder (f : Formula) : f.postorder.pushed.length = f.leafCount := by
  induction f with
  | atom name => rfl
  | negation f ih => simp [postorder, leafCount, ih]
  | binary c f g ihf ihg => simp [postorder, leafCount, ihf, ihg]

theorem pushesBefore_operand (hk : k ≤ f.size) :
    (negation f).postorder.pushesBefore k = f.postorder.pushesBefore k :=
  pushesBefore_append_left (by rwa [length_postorder]) _

theorem pushesBefore_left (c : BinaryConnective) (g : Formula) (hk : k ≤ f.size) :
    (binary c f g).postorder.pushesBefore k = f.postorder.pushesBefore k := by
  rw [postorder, List.append_assoc]
  exact pushesBefore_append_left (by rwa [length_postorder]) _

theorem pushesBefore_right (c : BinaryConnective) {g : Formula} (hk : k ≤ g.size) :
    (binary c f g).postorder.pushesBefore (f.size + k) =
      f.leafCount + g.postorder.pushesBefore k := by
  rw [postorder, List.append_assoc, ← f.length_postorder, pushesBefore_append_right,
    length_pushed_postorder]
  exact congrArg _ (pushesBefore_append_left (by rwa [length_postorder]) _)

/-- An occurrence of an atom stands as far to the right as there are occurrences before it. -/
theorem x_eq_of_push (hk : f.postorder[k]? = some (.push name))
    (h : (f.spots leaf depth)[k]? = some s) : s.x = leaf + f.postorder.pushesBefore k := by
  induction f generalizing leaf depth k with
  | atom _ =>
      obtain ⟨hlt, _⟩ := List.getElem?_eq_some_iff.1 hk
      obtain rfl : k = 0 := Nat.lt_one_iff.1 hlt
      cases h
      simp [pushesBefore]
  | negation f ih =>
      rcases getElem?_postorder_negation hk with ⟨hlt, hk⟩ | ⟨_, hpush⟩
      · rw [getElem?_spots_operand leaf depth hlt] at h
        rw [ih hk h, pushesBefore_operand hlt.le]
      · cases hpush
  | binary c f g ihf ihg =>
      rcases getElem?_postorder_binary hk with ⟨hlt, hk⟩ | ⟨j, rfl, hlt, hj⟩ | ⟨_, hpush⟩
      · rw [getElem?_spots_left c g leaf depth hlt] at h
        rw [ihf hk h, pushesBefore_left c g hlt.le]
      · rw [getElem?_spots_right c f leaf depth hlt] at h
        rw [ihg hj h, pushesBefore_right c hlt.le]
        push_cast
        exact add_assoc _ _ _
      · cases hpush

/-- The instruction of the main connective. -/
def main : Formula → Instruction
  | .atom name => .push name
  | .negation _ => .apply .not
  | .binary c _ _ => .apply (.binary c)

theorem getElem?_postorder_main (f : Formula) : f.postorder[f.size - 1]? = some f.main := by
  rw [← length_postorder]
  cases f with
  | atom name => rfl
  | negation f => simp [postorder, main]
  | binary c f g => simp [postorder, main]

theorem exists_first_push (f : Formula) : ∃ name, f.postorder[0]? = some (.push name) := by
  induction f with
  | atom name => exact ⟨name, rfl⟩
  | negation f ih =>
      obtain ⟨name, hname⟩ := ih
      refine ⟨name, ?_⟩
      rw [postorder, List.getElem?_append_left (by rw [length_postorder]; exact f.size_pos), hname]
  | binary c f g ihf _ =>
      obtain ⟨name, hname⟩ := ihf
      refine ⟨name, ?_⟩
      rw [postorder, List.append_assoc,
        List.getElem?_append_left (by rw [length_postorder]; exact f.size_pos), hname]

theorem exists_last_push (f : Formula) :
    ∃ k name, f.postorder[k]? = some (.push name) ∧
      f.postorder.pushesBefore k + 1 = f.leafCount ∧
      ∀ j other, f.postorder[j]? = some (.push other) → j ≤ k := by
  induction f with
  | atom name =>
      refine ⟨0, name, rfl, rfl, ?_⟩
      intro j other hj
      obtain ⟨hlt, _⟩ := List.getElem?_eq_some_iff.1 hj
      exact Nat.le_of_lt_succ hlt
  | negation f ih =>
      obtain ⟨k, name, hk, hcount, hlast⟩ := ih
      have hlt : k < f.size := f.length_postorder ▸ (List.getElem?_eq_some_iff.1 hk).1
      refine ⟨k, name, ?_, ?_, ?_⟩
      · rw [postorder, List.getElem?_append_left (by rwa [length_postorder]), hk]
      · rw [pushesBefore_operand hlt.le, hcount, leafCount]
      · intro j other hj
        rcases getElem?_postorder_negation hj with ⟨_, hj⟩ | ⟨_, hpush⟩
        · exact hlast j other hj
        · cases hpush
  | binary c f g _ ihg =>
      obtain ⟨k, name, hk, hcount, hlast⟩ := ihg
      have hlt : k < g.size := g.length_postorder ▸ (List.getElem?_eq_some_iff.1 hk).1
      refine ⟨f.size + k, name, ?_, ?_, ?_⟩
      · rw [postorder, List.append_assoc, ← f.length_postorder,
          List.getElem?_append_right (Nat.le_add_right _ _), Nat.add_sub_cancel_left,
          List.getElem?_append_left (by rwa [length_postorder]), hk]
      · rw [pushesBefore_right c hlt.le, Nat.add_assoc, hcount, leafCount]
      · intro j other hj
        rcases getElem?_postorder_binary hj with ⟨hj, _⟩ | ⟨i, rfl, _, hi⟩ | ⟨_, hpush⟩
        · omega
        · exact Nat.add_le_add_left (hlast i other hi) _
        · cases hpush

end Formula

end Sentential
