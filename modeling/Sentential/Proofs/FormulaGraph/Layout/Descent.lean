import Sentential.Proofs.FormulaGraph.Layout
/-!
# The layout of the graph of a formula

The descent through the graph meets the nodes of a formula in the order of their numbers, since an
operand on the left is placed before one on the right.  Each atom then takes the next coordinate, so
a subtree begins behind as many atoms as there are in front of it.
-/

namespace Sentential

namespace FormulaGraph

open Formula

variable {add : Rat → Rat → Rat}

/-! ## One step of the descent -/

section Step

variable {g : FormulaGraph} {bound id depth : Nat} {s : Placing}

theorem run_placeNode_of_nil (h : g.children id = []) :
    (g.placeNode add (bound + 1) id depth).run s =
      pure ((s.next : Rat), ⟨s.next + 1, s.placed ++ [⟨id, s.next, -depth⟩]⟩) := by
  simp only [placeNode, h]
  rfl

theorem run_placeNode_of_singleton {child : Nat} {x : Rat} {s' : Placing}
    (h : g.children id = [child])
    (hchild : (g.placeNode add bound child (depth + 1)).run s = pure (x, s')) :
    (g.placeNode add (bound + 1) id depth).run s =
      pure (x, ⟨s'.next, s'.placed ++ [⟨id, x, -depth⟩]⟩) := by
  have hmean : mean add [x] = x := by simp [mean]
  simp [placeNode, h, hchild, hmean]

theorem run_placeNode_of_pair {left right : Nat} {x y : Rat} {s' s'' : Placing}
    (h : g.children id = [left, right])
    (hleft : (g.placeNode add bound left (depth + 1)).run s = pure (x, s'))
    (hright : (g.placeNode add bound right (depth + 1)).run s' = pure (y, s'')) :
    (g.placeNode add (bound + 1) id depth).run s =
      pure (add x y / 2, ⟨s''.next, s''.placed ++ [⟨id, add x y / 2, -depth⟩]⟩) := by
  have hmean : mean add [x, y] = add x y / 2 := by norm_num [mean]
  simp [placeNode, h, hleft, hright, hmean]

end Step

/-! ## The descent through a formula -/

/-- The places of nodes that are numbered one after the other. -/
def numbered (first : Nat) (spots : List Spot) : List PlacedNode :=
  (spots.zipIdx first).map fun (spot, id) => ⟨id, spot⟩

theorem numbered_append (first : Nat) (spots spots' : List Spot) :
    numbered first (spots ++ spots') =
      numbered first spots ++ numbered (first + spots.length) spots' := by
  rw [numbered, List.zipIdx_append, List.map_append]
  rfl

theorem numbered_singleton (first : Nat) (spot : Spot) : numbered first [spot] = [⟨first, spot⟩] :=
  rfl

/-- From the nodes of a formula the same edges run in a graph as in the formula. -/
def Agrees (g : FormulaGraph) (first : Nat) (f : Formula) : Prop :=
  ∀ k < f.size, g.outgoing (first + k) = (f.edgesFrom first).filter (·.source = first + k)

namespace Agrees

variable {g : FormulaGraph} {first : Nat} {c : BinaryConnective} {f f' : Formula}

theorem operand (h : g.Agrees first (.negation f)) : g.Agrees first f := by
  intro k hk
  rw [h k (Nat.lt_succ_of_lt hk), filter_source_operand hk]

theorem left (h : g.Agrees first (.binary c f f')) : g.Agrees first f := by
  intro k hk
  rw [h k (by rw [size]; omega), filter_source_left hk]

theorem right (h : g.Agrees first (.binary c f f')) : g.Agrees (first + f.size) f' := by
  intro k hk
  rw [Nat.add_assoc, h (f.size + k) (by rw [size]; omega), ← Nat.add_assoc, filter_source_right hk]

theorem children_atom {name : String} (h : g.Agrees first (.atom name)) :
    g.children ((Formula.atom name).rootFrom first) = [] := by
  have hout : g.outgoing first = [] := h 0 Nat.one_pos
  rw [show (Formula.atom name).rootFrom first = first from rfl, children, hout]
  rfl

theorem children_negation (h : g.Agrees first (.negation f)) :
    g.children ((Formula.negation f).rootFrom first) = [f.rootFrom first] := by
  have hout := h f.size (Nat.lt_succ_self _)
  rw [filter_source_negation] at hout
  rw [rootFrom_negation, children, hout]
  rfl

theorem children_binary (h : g.Agrees first (.binary c f f')) :
    g.children ((Formula.binary c f f').rootFrom first) =
      [f.rootFrom first, f'.rootFrom (first + f.size)] := by
  have hout := h (f.size + f'.size) (Nat.lt_succ_self _)
  rw [← Nat.add_assoc, filter_source_binary] at hout
  rw [rootFrom_binary, children, hout]
  rfl

end Agrees

/-- Half of a sum. -/
def midway (add : Rat → Rat → Rat) (x y : Rat) : Rat := add x y / 2

/-- The descent to a formula places its nodes where the formula does. -/
theorem run_placeNode_of_agrees (add : Rat → Rat → Rat) {g : FormulaGraph} {first bound : Nat}
    {f : Formula} (h : g.Agrees first f) (hbound : f.size ≤ bound) (depth : Nat) (s : Placing) :
    (g.placeNode add bound (f.rootFrom first) depth).run s =
      pure ((f.place (midway add) s.next depth).2,
        ⟨s.next + f.leafCount,
          s.placed ++ numbered first (f.place (midway add) s.next depth).1⟩) := by
  induction f generalizing first bound depth s with
  | atom name =>
      obtain ⟨bound, rfl⟩ := Nat.exists_eq_add_of_le' hbound
      exact run_placeNode_of_nil h.children_atom
  | negation f ih =>
      obtain ⟨bound, rfl⟩ := Nat.exists_eq_add_of_le' (f.negation.size_pos.trans_le hbound)
      have hchild := ih h.operand (Nat.le_of_succ_le_succ hbound) (depth + 1) s
      rw [run_placeNode_of_singleton h.children_negation hchild, rootFrom_negation]
      simp [place, leafCount, numbered_append, numbered_singleton, length_place]
  | binary c f f' ihf ihf' =>
      obtain ⟨bound, rfl⟩ := Nat.exists_eq_add_of_le' ((f.binary c f').size_pos.trans_le hbound)
      rw [size] at hbound
      have hfbound : f.size ≤ bound := by omega
      have hgbound : f'.size ≤ bound := by omega
      have hleft := ihf h.left hfbound (depth + 1) s
      have hright := ihf' h.right hgbound (depth + 1) ⟨s.next + f.leafCount,
        s.placed ++ numbered first (f.place (midway add) s.next (depth + 1)).1⟩
      rw [run_placeNode_of_pair h.children_binary hleft hright, rootFrom_binary]
      simp [place, leafCount, numbered_append, numbered_singleton, length_place, midway,
        Nat.add_assoc]

theorem agrees_graph (f : Formula) : f.graph.Agrees 0 f := fun _ _ => rfl

/-- The graph of a formula is laid out as the formula is, whatever the way to add. -/
theorem layoutBy?_graph (add : Rat → Rat → Rat) (f : Formula) :
    f.graph.layoutBy? add = some (numbered 0 (f.place (midway add) 0 0).1) := by
  have hsize : f.size ≤ f.graph.nodes.length := by simp [Formula.graph, f.length_postorder]
  have hrun := run_placeNode_of_agrees add (agrees_graph f) hsize 0 ⟨0, []⟩
  rw [layoutBy?, root?_graph, Option.map_some, Formula.root, hrun]
  simp only [Nat.zero_add, List.nil_append]
  rfl

/-- The layout of a graph is the one in which no two nodes overlap. -/
theorem layout?_graph (f : Formula) : f.graph.layout? = some (numbered 0 f.layout) :=
  layoutBy?_graph (· + ·) f

end FormulaGraph

end Sentential
