import Sentential.Proofs.FormulaGraph.Layout.Descent
import Mathlib.Logic.Relation
/-!
# The layout of a program's graph

Depth and subtrees are read off the edges of the graph.  Every node is the main connective of a
subformula that is laid out by itself: its atoms fill an interval of coordinates that no other
subformula of the same depth shares.
-/

namespace Sentential

namespace FormulaGraph

open Formula

/-- The second node lies in the subtree of the first. -/
def Below (g : FormulaGraph) : Nat → Nat → Prop :=
  Relation.ReflTransGen fun source target => ∃ side, ⟨source, target, side⟩ ∈ g.edges

/-- How many edges lead from the root to a node. -/
inductive AtDepth (g : FormulaGraph) : Nat → Nat → Prop
  | root {id : Nat} : g.root? = some id → AtDepth g id 0
  | operand {e : Edge} {depth : Nat} : e ∈ g.edges → AtDepth g e.source depth →
      AtDepth g e.target (depth + 1)

/-- A formula is laid out in a graph: its nodes are those from `first` on, the main connective is at
the given depth, and its leftmost atom stands at `leaf`. -/
structure Places (g : FormulaGraph) (spots : List Spot) (first leaf depth : Nat) (f : Formula) :
    Prop where
  hosts : g.Hosts first f
  getElem?_eq : ∀ k < f.size, spots[first + k]? = (f.spots leaf depth)[k]?
  atDepth : g.AtDepth (f.rootFrom first) depth

/-! ## Subtrees -/

variable {g : FormulaGraph} {first leaf depth k l : Nat} {spots : List Spot} {f f' : Formula}
  {c : BinaryConnective}

/-- A subtree reaches down to smaller numbers and does not leave a formula. -/
theorem Hosts.mem_of_below (h : g.Hosts first f) (hk : first ≤ k) (hlt : k < first + f.size)
    (hbelow : g.Below k l) : first ≤ l ∧ l ≤ k := by
  induction hbelow with
  | refl => exact ⟨hk, Nat.le_refl k⟩
  | @tail m n _ hedge ih =>
      obtain ⟨side, hmem⟩ := hedge
      have htarget := target_of_mem_edgesFrom
        ((h.edges ⟨m, n, side⟩ ih.1 (Nat.lt_of_le_of_lt ih.2 hlt)).1 hmem)
      exact ⟨htarget.1, Nat.le_trans (Nat.le_of_lt htarget.2) ih.2⟩

/-- The whole formula lies below its main connective. -/
theorem Hosts.below_root (h : g.Hosts first f) (hk : first ≤ k) (hlt : k < first + f.size) :
    g.Below (f.rootFrom first) k := by
  induction f generalizing first with
  | atom name =>
      obtain rfl : k = first := by
        rw [size] at hlt
        omega
      exact .refl
  | negation f ih =>
      rw [size] at hlt
      rw [rootFrom_negation]
      by_cases hroot : k = first + f.size
      · rw [hroot]
        exact .refl
      · have hoperand := ih h.operand hk (by omega)
        exact .head ⟨_, h.edge_negation_iff.2 ⟨rfl, rfl⟩⟩ hoperand
  | binary c f f' ihf ihf' =>
      rw [size] at hlt
      rw [rootFrom_binary]
      by_cases hroot : k = first + f.size + f'.size
      · rw [hroot]
        exact .refl
      · by_cases hleft : k < first + f.size
        · have hoperand := ihf h.left hk hleft
          exact .head ⟨_, h.edge_binary_iff.2 (.inl ⟨rfl, rfl⟩)⟩ hoperand
        · have hoperand := ihf' h.right (by omega) (by omega)
          exact .head ⟨_, h.edge_binary_iff.2 (.inr ⟨rfl, rfl⟩)⟩ hoperand

theorem Hosts.below_iff (h : g.Hosts first f) :
    g.Below (f.rootFrom first) k ↔ first ≤ k ∧ k < first + f.size := by
  have hroot := f.rootFrom_add_one first
  have hpos := f.size_pos
  constructor
  · intro hbelow
    have hmem := h.mem_of_below (by omega) (by omega) hbelow
    omega
  · rintro ⟨hk, hlt⟩
    exact h.below_root hk hlt

/-! ## Subformulas -/

namespace Places

theorem operand (h : g.Places spots first leaf depth (.negation f)) :
    g.Places spots first leaf (depth + 1) f := by
  constructor
  case hosts => exact h.hosts.operand
  case getElem?_eq =>
    intro k hk
    rw [h.getElem?_eq k (Nat.lt_succ_of_lt hk), getElem?_spots_operand leaf depth hk]
  case atDepth =>
    have hroot := h.atDepth
    rw [rootFrom_negation] at hroot
    exact .operand (h.hosts.edge_negation_iff.2 ⟨rfl, rfl⟩) hroot

theorem left (h : g.Places spots first leaf depth (.binary c f f')) :
    g.Places spots first leaf (depth + 1) f := by
  constructor
  case hosts => exact h.hosts.left
  case getElem?_eq =>
    intro k hk
    rw [h.getElem?_eq k (by rw [size]; omega), getElem?_spots_left c f' leaf depth hk]
  case atDepth =>
    have hroot := h.atDepth
    rw [rootFrom_binary] at hroot
    exact .operand (h.hosts.edge_binary_iff.2 (.inl ⟨rfl, rfl⟩)) hroot

theorem right (h : g.Places spots first leaf depth (.binary c f f')) :
    g.Places spots (first + f.size) (leaf + f.leafCount) (depth + 1) f' := by
  constructor
  case hosts => exact h.hosts.right
  case getElem?_eq =>
    intro k hk
    rw [Nat.add_assoc, h.getElem?_eq (f.size + k) (by rw [size]; omega),
      getElem?_spots_right c f leaf depth hk]
  case atDepth =>
    have hroot := h.atDepth
    rw [rootFrom_binary] at hroot
    exact .operand (h.hosts.edge_binary_iff.2 (.inr ⟨rfl, rfl⟩)) hroot

theorem getElem?_root (h : g.Places spots first leaf depth f) :
    spots[f.rootFrom first]? = some ⟨f.centre leaf depth, -depth⟩ := by
  have hpos := f.size_pos
  have hroot : f.rootFrom first = first + (f.size - 1) := by
    rw [rootFrom]
    omega
  rw [hroot, h.getElem?_eq _ (by omega), getElem?_spots_root]

/-- Every node of a formula is the main connective of a subformula. -/
theorem exists_part (h : g.Places spots first leaf depth f) (hk : first ≤ k)
    (hlt : k < first + f.size) :
    ∃ first' leaf' depth' part, g.Places spots first' leaf' depth' part ∧
      part.rootFrom first' = k := by
  induction f generalizing first leaf depth with
  | atom name =>
      rw [size] at hlt
      exact ⟨first, leaf, depth, _, h, Nat.le_antisymm hk (Nat.le_of_lt_succ hlt)⟩
  | negation f ih =>
      rw [size] at hlt
      by_cases hroot : k = first + f.size
      · refine ⟨first, leaf, depth, _, h, ?_⟩
        rw [rootFrom_negation, hroot]
      · exact ih h.operand hk (by omega)
  | binary c f f' ihf ihf' =>
      rw [size] at hlt
      by_cases hroot : k = first + f.size + f'.size
      · refine ⟨first, leaf, depth, _, h, ?_⟩
        rw [rootFrom_binary, hroot]
      · by_cases hleft : k < first + f.size
        · exact ihf h.left hk hleft
        · exact ihf' h.right (by omega) (by omega)

/-- An edge from the main connective leads to that of an operand. -/
theorem exists_operand (h : g.Places spots first leaf depth f) {e : Edge} (he : e ∈ g.edges)
    (hsource : e.source = f.rootFrom first) :
    ∃ first' leaf' part, g.Places spots first' leaf' (depth + 1) part ∧
      part.rootFrom first' = e.target := by
  obtain ⟨source, target, side⟩ := e
  obtain rfl : source = f.rootFrom first := hsource
  cases f with
  | atom name => exact absurd he (h.hosts.notMem_edges_of_atom rfl)
  | negation f =>
      rw [rootFrom_negation] at he
      obtain ⟨rfl, _⟩ := h.hosts.edge_negation_iff.1 he
      exact ⟨first, leaf, f, h.operand, rfl⟩
  | binary c f f' =>
      rw [rootFrom_binary] at he
      rcases h.hosts.edge_binary_iff.1 he with ⟨rfl, _⟩ | ⟨rfl, _⟩
      · exact ⟨first, leaf, f, h.left, rfl⟩
      · exact ⟨first + f.size, leaf + f.leafCount, f', h.right, rfl⟩

end Places

/-! ## The graph of a formula -/

theorem places_graph (f : Formula) : f.graph.Places f.layout 0 0 0 f := by
  constructor
  case hosts => exact hosts_graph f
  case getElem?_eq =>
    intro k _
    rw [Nat.zero_add]
    rfl
  case atDepth => exact .root (root?_graph f)

theorem exists_part_of_lt {f : Formula} (hk : k < f.size) :
    ∃ first leaf depth part, f.graph.Places f.layout first leaf depth part ∧
      part.rootFrom first = k :=
  (places_graph f).exists_part (Nat.zero_le k) (by rwa [Nat.zero_add])

theorem AtDepth.exists_part {f : Formula} (h : f.graph.AtDepth k depth) :
    ∃ first leaf part, f.graph.Places f.layout first leaf depth part ∧ part.rootFrom first = k := by
  induction h with
  | root hroot =>
      rw [root?_graph] at hroot
      exact ⟨0, 0, f, places_graph f, Option.some.inj hroot⟩
  | operand he _ ih =>
      obtain ⟨first, leaf, part, hplaces, hsource⟩ := ih
      exact hplaces.exists_operand he hsource.symm

/-- A node shows only one instruction. -/
theorem IsNodeOf.getElem?_eq {f : Formula} {i : Instruction} (h : f.graph.IsNodeOf k i) :
    f.postorder[k]? = some i := by
  obtain ⟨⟨n, hn, rfl⟩, hall⟩ := h
  obtain ⟨hlabel, hkind⟩ := hall n hn rfl
  obtain ⟨j, hget, hlabel', hkind', _⟩ := mem_nodes_graph_iff.1 hn
  rw [hget, ← Node.instruction?_eq hlabel' hkind', Node.instruction?_eq hlabel hkind]

/-- The node is an occurrence of an atom in the subtree of another. -/
def IsLeafBelow (g : FormulaGraph) (p : Program) (k l : Nat) : Prop :=
  g.Below k l ∧ ∃ name, p[l]? = some (.push name)

/-- A layout gives each node of a program's graph one place.  The occurrences of atoms stand at
whole coordinates from left to right, every connective above the middle of its operands and between
the first and the last atom of its subtree, and on the level of its depth.  On each level the nodes
stand at least one apart, in the order of their subtrees. -/
structure IsTidy (g : FormulaGraph) (p : Program) (spots : List Spot) : Prop where
  length_spots : spots.length = p.length
  node : ∀ k : Nat, (∃ n ∈ g.nodes, n.id = k) ↔ ∃ s, spots[k]? = some s
  atom : ∀ (k : Nat) (name : String) (s : Spot), p[k]? = some (.push name) → spots[k]? = some s →
    s.x = p.pushesBefore k
  negation : ∀ k : Nat, p[k]? = some (.apply .not) → ∃ child s t,
    g.outgoing k = [⟨k, child, .operand⟩] ∧ spots[k]? = some s ∧ spots[child]? = some t ∧
      s.x = t.x
  binary : ∀ (k : Nat) (c : BinaryConnective), p[k]? = some (.apply (.binary c)) →
    ∃ left right s t u, g.outgoing k = [⟨k, left, .left⟩, ⟨k, right, .right⟩] ∧
      spots[k]? = some s ∧ spots[left]? = some t ∧ spots[right]? = some u ∧
        s.x = (t.x + u.x) / 2
  between : ∀ (k : Nat) (s : Spot), spots[k]? = some s → ∃ first last t u, g.IsLeafBelow p k first ∧
    g.IsLeafBelow p k last ∧ (∀ l, g.IsLeafBelow p k l → first ≤ l ∧ l ≤ last) ∧
      spots[first]? = some t ∧ spots[last]? = some u ∧ t.x ≤ s.x ∧ s.x ≤ u.x
  depth : ∀ k < p.length, ∃ d, g.AtDepth k d
  level : ∀ k d, g.AtDepth k d → ∃ x, spots[k]? = some ⟨x, -d⟩
  apart : ∀ (d j k : Nat) (s t : Spot), g.AtDepth j d → g.AtDepth k d → j < k →
    spots[j]? = some s → spots[k]? = some t →
      s.x + 1 ≤ t.x ∧ ∀ m n, g.Below j m → g.Below k n → m < n
  nodup : spots.Nodup

section Tidy

variable {f part : Formula} {s : Spot}

theorem length_layout (f : Formula) : f.layout.length = f.size := f.length_spots 0 0

theorem lt_size_of_getElem?_layout (h : f.layout[k]? = some s) : k < f.size :=
  length_layout f ▸ (List.getElem?_eq_some_iff.1 h).1

theorem lt_size_of_getElem?_postorder {i : Instruction} (h : f.postorder[k]? = some i) :
    k < f.size :=
  f.length_postorder ▸ (List.getElem?_eq_some_iff.1 h).1

theorem x_of_push {name : String} (h : f.postorder[k]? = some (.push name))
    (hs : f.layout[k]? = some s) : s.x = f.postorder.pushesBefore k := by
  have hget : (f.spots 0 0)[k]? = some s := hs
  have hx := x_eq_of_push h hget
  rwa [Nat.cast_zero, zero_add] at hx

theorem mem_edges_of_mem_outgoing {e : Edge} (h : e ∈ g.outgoing k) : e ∈ g.edges :=
  (List.mem_filter.1 h).1

namespace Places

/-- The instructions of a part are those of the formula from its first node on. -/
theorem getElem?_postorder (h : f.graph.Places f.layout first leaf depth part)
    {i : Instruction} (hi : part.postorder[k]? = some i) : f.postorder[first + k]? = some i :=
  (h.hosts.nodes k i hi).getElem?_eq

theorem getElem?_postorder_root (h : f.graph.Places f.layout first leaf depth part) :
    f.postorder[part.rootFrom first]? = some part.main := by
  have hpos := part.size_pos
  have hroot : part.rootFrom first = first + (part.size - 1) := by
    rw [rootFrom]
    omega
  rw [hroot]
  exact h.getElem?_postorder part.getElem?_postorder_main

/-- A negation stands above its operand. -/
theorem centred_negation (h : f.graph.Places f.layout first leaf depth (.negation part))
    (hk : (Formula.negation part).rootFrom first = k) : ∃ child s t,
    f.graph.outgoing k = [⟨k, child, .operand⟩] ∧ f.layout[k]? = some s ∧
      f.layout[child]? = some t ∧ s.x = t.x := by
  have hspot := h.getElem?_root
  rw [hk] at hspot
  rw [rootFrom_negation] at hk
  subst hk
  obtain ⟨child, hedges⟩ := (isTreeOf_graph f).operands _ _ h.hosts.isNodeOf_negation.getElem?_eq
  have hmem : ⟨first + part.size, child, .operand⟩ ∈ f.graph.edges := by
    apply mem_edges_of_mem_outgoing
    rw [hedges]
    exact List.mem_singleton_self _
  obtain ⟨rfl, _⟩ := h.hosts.edge_negation_iff.1 hmem
  exact ⟨_, _, _, hedges, hspot, h.operand.getElem?_root, rfl⟩

/-- A binary connective stands above the middle of its operands. -/
theorem centred_binary (h : f.graph.Places f.layout first leaf depth (.binary c part f'))
    (hk : (Formula.binary c part f').rootFrom first = k) : ∃ left right s t u,
    f.graph.outgoing k = [⟨k, left, .left⟩, ⟨k, right, .right⟩] ∧ f.layout[k]? = some s ∧
      f.layout[left]? = some t ∧ f.layout[right]? = some u ∧ s.x = (t.x + u.x) / 2 := by
  have hspot := h.getElem?_root
  rw [hk] at hspot
  rw [rootFrom_binary] at hk
  subst hk
  obtain ⟨left, right, _, hedges⟩ :=
    (isTreeOf_graph f).operands _ _ h.hosts.isNodeOf_binary.getElem?_eq
  have hleft : ⟨first + part.size + f'.size, left, .left⟩ ∈ f.graph.edges := by
    apply mem_edges_of_mem_outgoing
    rw [hedges]
    exact List.mem_cons_self
  have hright : ⟨first + part.size + f'.size, right, .right⟩ ∈ f.graph.edges := by
    apply mem_edges_of_mem_outgoing
    rw [hedges]
    exact List.mem_cons_of_mem _ List.mem_cons_self
  obtain ⟨rfl, _⟩ | ⟨_, hside⟩ := h.hosts.edge_binary_iff.1 hleft
  · obtain ⟨_, hside⟩ | ⟨rfl, _⟩ := h.hosts.edge_binary_iff.1 hright
    · cases hside
    · exact ⟨_, _, _, _, _, hedges, hspot, h.left.getElem?_root, h.right.getElem?_root, rfl⟩
  · cases hside

theorem isLeafBelow_iff (h : f.graph.Places f.layout first leaf depth part) {l : Nat} :
    f.graph.IsLeafBelow f.postorder (part.rootFrom first) l ↔
      ∃ k name, l = first + k ∧ part.postorder[k]? = some (.push name) := by
  rw [IsLeafBelow, h.hosts.below_iff]
  constructor
  · rintro ⟨⟨hge, hlt⟩, name, hname⟩
    obtain ⟨k, rfl⟩ := Nat.exists_eq_add_of_le hge
    have hk : k < part.postorder.length := by
      rw [length_postorder]
      omega
    have hget := h.getElem?_postorder (List.getElem?_eq_getElem hk)
    refine ⟨k, name, rfl, ?_⟩
    rw [List.getElem?_eq_getElem hk, ← hget, hname]
  · rintro ⟨k, name, rfl, hname⟩
    have hk := lt_size_of_getElem?_postorder hname
    exact ⟨⟨Nat.le_add_right _ _, Nat.add_lt_add_left hk first⟩, name, h.getElem?_postorder hname⟩

/-- The main connective of a part is between its first and its last atom. -/
theorem exists_leaves (h : f.graph.Places f.layout first leaf depth part) :
    ∃ last t u, f.graph.IsLeafBelow f.postorder (part.rootFrom first) first ∧
      f.graph.IsLeafBelow f.postorder (part.rootFrom first) last ∧
      (∀ l, f.graph.IsLeafBelow f.postorder (part.rootFrom first) l → first ≤ l ∧ l ≤ last) ∧
      f.layout[first]? = some t ∧ f.layout[last]? = some u ∧
      t.x ≤ part.centre leaf depth ∧ part.centre leaf depth ≤ u.x := by
  obtain ⟨name, hname⟩ := part.exists_first_push
  obtain ⟨k, other, hother, hcount, hlast⟩ := part.exists_last_push
  obtain ⟨t, ht⟩ := exists_getElem?_spots part.size_pos leaf depth
  obtain ⟨u, hu⟩ := exists_getElem?_spots (lt_size_of_getElem?_postorder hother) leaf depth
  obtain ⟨hle, hge⟩ := part.centre_mem leaf depth
  refine ⟨first + k, t, u, h.isLeafBelow_iff.2 ⟨0, name, rfl, hname⟩,
    h.isLeafBelow_iff.2 ⟨k, other, rfl, hother⟩, ?_, ?_, ?_, ?_, ?_⟩
  · intro l hl
    obtain ⟨j, name', rfl, hj⟩ := h.isLeafBelow_iff.1 hl
    exact ⟨Nat.le_add_right _ _, Nat.add_le_add_left (hlast j name' hj) first⟩
  · exact (h.getElem?_eq 0 part.size_pos).trans ht
  · exact (h.getElem?_eq k (lt_size_of_getElem?_postorder hother)).trans hu
  · have hzero : (part.postorder.pushesBefore 0 : Rat) = 0 := Nat.cast_zero
    rwa [x_eq_of_push hname ht, hzero, add_zero]
  · have hlast : (part.postorder.pushesBefore k : Rat) + 1 = part.leafCount := by
      exact_mod_cast hcount
    rw [x_eq_of_push hother hu]
    linarith

/-- A part of the same depth with a later main connective lies after the whole part. -/
theorem lt_first {first' leaf' : Nat} {part' : Formula}
    (h : f.graph.Places f.layout first leaf depth part)
    (h' : f.graph.Places f.layout first' leaf' depth part')
    (hlt : part.rootFrom first < part'.rootFrom first') : part.rootFrom first < first' := by
  by_contra hge
  have hroot := part'.rootFrom_add_one first'
  obtain ⟨k, hk⟩ := Nat.exists_eq_add_of_le (Nat.not_lt.1 hge)
  have hspot := h.getElem?_root
  rw [hk, h'.getElem?_eq k (by omega)] at hspot
  have hy := y_le_of_lt (by omega) hspot
  simp only at hy
  linarith

end Places

/-- Every instruction is that of the main connective of a part. -/
theorem exists_part_of_getElem? {i : Instruction} (h : f.postorder[k]? = some i) :
    ∃ first leaf depth part, f.graph.Places f.layout first leaf depth part ∧
      part.rootFrom first = k ∧ part.main = i := by
  obtain ⟨first, leaf, depth, part, hplaces, hroot⟩ :=
    exists_part_of_lt (lt_size_of_getElem?_postorder h)
  rw [← hroot, hplaces.getElem?_postorder_root] at h
  exact ⟨first, leaf, depth, part, hplaces, hroot, Option.some.inj h⟩

end Tidy

theorem isTidy_graph (f : Formula) : f.graph.IsTidy f.postorder f.layout := by
  constructor
  case length_spots => rw [length_layout, length_postorder]
  case node =>
    intro k
    constructor
    · rintro ⟨n, hn, rfl⟩
      obtain ⟨i, hi, _⟩ := mem_nodes_graph_iff.1 hn
      exact exists_getElem?_spots (lt_size_of_getElem?_postorder hi) 0 0
    · rintro ⟨s, hs⟩
      have hk : k < f.postorder.length := by
        rw [length_postorder]
        exact lt_size_of_getElem?_layout hs
      obtain ⟨n, hn, hid⟩ := ((hosts_graph f).nodes k _ (List.getElem?_eq_getElem hk)).1
      rw [Nat.zero_add] at hid
      exact ⟨n, hn, hid⟩
  case atom => exact fun k name s h hs => x_of_push h hs
  case negation =>
    intro k hk
    obtain ⟨first, leaf, depth, part, h, hroot, hmain⟩ := exists_part_of_getElem? hk
    cases part with
    | atom name => cases hmain
    | negation part => exact h.centred_negation hroot
    | binary c part f' => cases hmain
  case binary =>
    intro k c hk
    obtain ⟨first, leaf, depth, part, h, hroot, hmain⟩ := exists_part_of_getElem? hk
    cases part with
    | atom name => cases hmain
    | negation part => cases hmain
    | binary c part f' =>
        cases hmain
        exact h.centred_binary hroot
  case between =>
    intro k s hs
    obtain ⟨first, leaf, depth, part, h, rfl⟩ := exists_part_of_lt (lt_size_of_getElem?_layout hs)
    obtain ⟨last, t, u, hfirst, hlast, hall, ht, hu, hle, hge⟩ := h.exists_leaves
    rw [h.getElem?_root] at hs
    cases hs
    exact ⟨first, last, t, u, hfirst, hlast, hall, ht, hu, hle, hge⟩
  case depth =>
    intro k hk
    rw [length_postorder] at hk
    obtain ⟨first, leaf, depth, part, h, rfl⟩ := exists_part_of_lt hk
    exact ⟨depth, h.atDepth⟩
  case level =>
    intro k d hd
    obtain ⟨first, leaf, part, h, rfl⟩ := hd.exists_part
    exact ⟨_, h.getElem?_root⟩
  case apart =>
    intro d j k s t hj hk hlt hs ht
    obtain ⟨first, leaf, part, h, rfl⟩ := hj.exists_part
    obtain ⟨first', leaf', part', h', rfl⟩ := hk.exists_part
    refine ⟨?_, ?_⟩
    · have hlevel : s.y = t.y := by
        rw [h.getElem?_root] at hs
        rw [h'.getElem?_root] at ht
        cases hs
        cases ht
        rfl
      obtain ⟨hj, rfl⟩ := List.getElem?_eq_some_iff.1 hs
      obtain ⟨hk, rfl⟩ := List.getElem?_eq_some_iff.1 ht
      exact List.pairwise_iff_getElem.1 (f.pairwise_spots 0 0) _ _ hj hk hlt hlevel
    · intro m n hm hn
      have hfirst := h.lt_first h' hlt
      have hroot := part.rootFrom_add_one first
      rw [h.hosts.below_iff] at hm
      rw [h'.hosts.below_iff] at hn
      omega
  case nodup => exact f.nodup_spots 0 0

end FormulaGraph

namespace Program

/-- Every graph that a program builds has a layout, which is that of the formula, and it keeps all
of the nodes apart. -/
theorem layout_isTidy {p : Program} {g : FormulaGraph} (h : p.graph = .ok g) :
    ∃ f, p.formula = .ok f ∧ g.layout? = some (FormulaGraph.numbered 0 f.layout) ∧
      g.IsTidy p f.layout := by
  obtain ⟨f, rfl, rfl⟩ := graph_eq_ok_iff.1 h
  exact ⟨f, formula_eq_ok_iff.2 rfl, FormulaGraph.layout?_graph f, FormulaGraph.isTidy_graph f⟩

/-- The operands of the disjunction have subtrees of unequal height. -/
theorem layout_isTidy_skewed :
    ∃ g f, graph [.push "P", .push "Q", .apply .not, .push "P", .apply (.binary .and),
        .apply (.binary .or)] = .ok g ∧
      formula [.push "P", .push "Q", .apply .not, .push "P", .apply (.binary .and),
        .apply (.binary .or)] = .ok f ∧
      g.edges = [⟨2, 1, .operand⟩, ⟨4, 2, .left⟩, ⟨4, 3, .right⟩, ⟨5, 0, .left⟩,
        ⟨5, 4, .right⟩] ∧
      g.layout? = some (FormulaGraph.numbered 0 (Formula.layout f)) ∧
      g.IsTidy [.push "P", .push "Q", .apply .not, .push "P", .apply (.binary .and),
        .apply (.binary .or)] (Formula.layout f) := by
  have hgraph : graph [.push "P", .push "Q", .apply .not, .push "P", .apply (.binary .and),
      .apply (.binary .or)] = .ok _ := rfl
  obtain ⟨f, hf, hlayout, htidy⟩ := layout_isTidy hgraph
  exact ⟨_, f, rfl, hf, rfl, hlayout, htidy⟩

example :
    (Formula.binary .or (.atom "P")
      (.binary .and (.negation (.atom "Q")) (.atom "P"))).graph.layout? =
      some (FormulaGraph.numbered 0
        [⟨0, -1⟩, ⟨1, -3⟩, ⟨1, -2⟩, ⟨2, -2⟩, ⟨3 / 2, -1⟩, ⟨3 / 4, 0⟩]) := by
  decide +kernel

end Program

end Sentential
