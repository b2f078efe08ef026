import Sentential.Proofs.FormulaGraph.Builder
import Sentential.Proofs.Program
import Sentential.Proofs.Symbol
import Sentential.Value
/-!
# The value of a graph

A graph is evaluated from a node downwards.  The graph that a program builds holds that of every
subformula in an interval of numbers, with no edge leaving the interval, so its root has one value:
the one that the stack machine computes.
-/

namespace Sentential

namespace FormulaGraph

/-- The truth value of a node.  A node of an atom reads its label; a node of a connective applies
it to the values of the nodes to which its edges run. -/
inductive Evaluates (g : FormulaGraph) (v : Valuation) : Nat → Bool → Prop
  | atom {n : Node} : n ∈ g.nodes → n.kind = .atom → Evaluates g v n.id (v n.label)
  | negation {n : Node} {child : Nat} {b : Bool} : n ∈ g.nodes → n.kind = .operator →
      n.label = Connective.not.text → ⟨n.id, child, .operand⟩ ∈ g.edges →
      Evaluates g v child b → Evaluates g v n.id (!b)
  | binary {n : Node} {c : BinaryConnective} {left right : Nat} {b d : Bool} : n ∈ g.nodes →
      n.kind = .operator → n.label = (Connective.binary c).text →
      ⟨n.id, left, .left⟩ ∈ g.edges → ⟨n.id, right, .right⟩ ∈ g.edges →
      Evaluates g v left b → Evaluates g v right d → Evaluates g v n.id (c.holds b d)

/-- The node of the given number is that of the instruction. -/
def IsNodeOf (g : FormulaGraph) (id : Nat) (i : Instruction) : Prop :=
  (∃ n ∈ g.nodes, n.id = id) ∧
    ∀ n ∈ g.nodes, n.id = id → n.label = i.text ∧ n.kind = .ofInstruction i

/-- The nodes from `first` on are those of a formula, and so are the edges that leave them. -/
structure Hosts (g : FormulaGraph) (first : Nat) (f : Formula) : Prop where
  nodes : ∀ k i, f.postorder[k]? = some i → g.IsNodeOf (first + k) i
  edges : ∀ e : Edge, first ≤ e.source → e.source < first + f.size →
    (e ∈ g.edges ↔ e ∈ f.edgesFrom first)

variable {g : FormulaGraph} {v : Valuation} {id : Nat} {b : Bool}

theorem evaluates_push_iff {name : String} (h : g.IsNodeOf id (.push name)) :
    g.Evaluates v id b ↔ b = v name := by
  obtain ⟨⟨n, hn, rfl⟩, hall⟩ := h
  constructor
  · intro heval
    generalize hid : n.id = id at heval
    cases heval with
    | @atom m hm hkind =>
        rw [(hall m hm hid.symm).1]
        rfl
    | @negation m _ _ hm hkind =>
        cases hkind.symm.trans (hall m hm hid.symm).2
    | @binary m _ _ _ _ _ hm hkind =>
        cases hkind.symm.trans (hall m hm hid.symm).2
  · rintro rfl
    obtain ⟨hlabel, hkind⟩ := hall n hn rfl
    have heval := Evaluates.atom (v := v) hn hkind
    rwa [hlabel] at heval

theorem evaluates_not_iff (h : g.IsNodeOf id (.apply .not)) :
    g.Evaluates v id b ↔
      ∃ child d, ⟨id, child, .operand⟩ ∈ g.edges ∧ g.Evaluates v child d ∧ b = !d := by
  obtain ⟨⟨n, hn, rfl⟩, hall⟩ := h
  constructor
  · intro heval
    generalize hid : n.id = id at heval
    cases heval with
    | @atom m hm hkind => cases hkind.symm.trans (hall m hm hid.symm).2
    | @negation m child d hm hkind hlabel hedge heval => exact ⟨child, d, hedge, heval, rfl⟩
    | @binary m c _ _ _ _ hm hkind hlabel =>
        have htext : (Connective.binary c).text = Connective.not.text :=
          hlabel.symm.trans (hall m hm hid.symm).1
        cases Connective.text_injective htext
  · rintro ⟨child, d, hedge, heval, rfl⟩
    obtain ⟨hlabel, hkind⟩ := hall n hn rfl
    exact .negation hn hkind hlabel hedge heval

theorem evaluates_binary_iff {c : BinaryConnective} (h : g.IsNodeOf id (.apply (.binary c))) :
    g.Evaluates v id b ↔
      ∃ left right d e, ⟨id, left, .left⟩ ∈ g.edges ∧ ⟨id, right, .right⟩ ∈ g.edges ∧
        g.Evaluates v left d ∧ g.Evaluates v right e ∧ b = c.holds d e := by
  obtain ⟨⟨n, hn, rfl⟩, hall⟩ := h
  constructor
  · intro heval
    generalize hid : n.id = id at heval
    cases heval with
    | @atom m hm hkind => cases hkind.symm.trans (hall m hm hid.symm).2
    | @negation m _ _ hm hkind hlabel =>
        have htext : Connective.not.text = (Connective.binary c).text :=
          hlabel.symm.trans (hall m hm hid.symm).1
        cases Connective.text_injective htext
    | @binary m c' left right d e hm hkind hlabel hleft hright hd he =>
        have htext : (Connective.binary c').text = (Connective.binary c).text :=
          hlabel.symm.trans (hall m hm hid.symm).1
        cases Connective.text_injective htext
        exact ⟨left, right, d, e, hleft, hright, hd, he, rfl⟩
  · rintro ⟨left, right, d, e, hleft, hright, hd, he, rfl⟩
    obtain ⟨hlabel, hkind⟩ := hall n hn rfl
    exact .binary hn hkind hlabel hleft hright hd he

end FormulaGraph

namespace Formula

open FormulaGraph

theorem size_pos (f : Formula) : 0 < f.size := by
  cases f <;> simp [size]

theorem source_of_mem_edgesFrom {f : Formula} {first : Nat} {e : Edge}
    (h : e ∈ f.edgesFrom first) : first ≤ e.source ∧ e.source < first + f.size := by
  induction f generalizing first with
  | atom name => simp [edgesFrom] at h
  | negation f ih =>
      rw [edgesFrom, List.mem_append, List.mem_singleton] at h
      rw [size]
      rcases h with h | rfl
      · have := ih h
        omega
      · simp
  | binary c f g ihf ihg =>
      simp only [edgesFrom, List.mem_append, List.mem_cons, List.not_mem_nil, or_false] at h
      rw [size]
      rcases h with (h | h) | rfl | rfl
      · have := ihf h
        omega
      · have := ihg h
        omega
      · simp only
        omega
      · simp only
        omega

theorem mem_edgesFrom_binary {c : BinaryConnective} {f g : Formula} {first : Nat} {e : Edge} :
    e ∈ (Formula.binary c f g).edgesFrom first ↔
      e ∈ f.edgesFrom first ∨ e ∈ g.edgesFrom (first + f.size) ∨
        e = ⟨first + f.size + g.size, f.rootFrom first, .left⟩ ∨
        e = ⟨first + f.size + g.size, g.rootFrom (first + f.size), .right⟩ := by
  simp [edgesFrom]

end Formula

namespace FormulaGraph

open Formula

namespace Hosts

variable {g : FormulaGraph} {first : Nat} {c : BinaryConnective} {f f' : Formula}

theorem operand (h : g.Hosts first (.negation f)) : g.Hosts first f := by
  constructor
  case nodes =>
    intro k i hk
    apply h.nodes k i
    rw [postorder, List.getElem?_append_left (List.getElem?_eq_some_iff.1 hk).1, hk]
  case edges =>
    intro e hge hlt
    rw [h.edges e hge (by rw [size]; omega), edgesFrom, List.mem_append, List.mem_singleton]
    refine ⟨fun hmem => hmem.resolve_right ?_, .inl⟩
    rintro rfl
    exact absurd hlt (Nat.lt_irrefl _)

theorem left (h : g.Hosts first (.binary c f f')) : g.Hosts first f := by
  constructor
  case nodes =>
    intro k i hk
    have hlt := (List.getElem?_eq_some_iff.1 hk).1
    apply h.nodes k i
    rw [postorder, List.append_assoc, List.getElem?_append_left hlt, hk]
  case edges =>
    intro e hge hlt
    rw [h.edges e hge (by rw [size]; omega), mem_edgesFrom_binary]
    refine ⟨?_, .inl⟩
    rintro (hmem | hmem | rfl | rfl)
    · exact hmem
    · have hsource := source_of_mem_edgesFrom hmem
      omega
    · simp only at hlt
      omega
    · simp only at hlt
      omega

theorem right (h : g.Hosts first (.binary c f f')) : g.Hosts (first + f.size) f' := by
  constructor
  case nodes =>
    intro k i hk
    have hlt := (List.getElem?_eq_some_iff.1 hk).1
    rw [Nat.add_assoc]
    apply h.nodes (f.size + k) i
    rw [postorder, List.append_assoc, ← length_postorder, List.getElem?_append_right (by omega),
      Nat.add_sub_cancel_left, List.getElem?_append_left hlt, hk]
  case edges =>
    intro e hge hlt
    rw [h.edges e (by omega) (by rw [size]; omega), mem_edgesFrom_binary]
    refine ⟨?_, fun hmem => .inr (.inl hmem)⟩
    rintro (hmem | hmem | rfl | rfl)
    · have hsource := source_of_mem_edgesFrom hmem
      omega
    · exact hmem
    · simp only at hlt
      omega
    · simp only at hlt
      omega

theorem isNodeOf_atom {name : String} (h : g.Hosts first (.atom name)) :
    g.IsNodeOf first (.push name) :=
  h.nodes 0 _ rfl

theorem isNodeOf_negation (h : g.Hosts first (.negation f)) :
    g.IsNodeOf (first + f.size) (.apply .not) := by
  apply h.nodes
  rw [postorder, ← length_postorder, List.getElem?_concat_length]

theorem isNodeOf_binary (h : g.Hosts first (.binary c f f')) :
    g.IsNodeOf (first + f.size + f'.size) (.apply (.binary c)) := by
  rw [Nat.add_assoc]
  apply h.nodes
  rw [postorder, ← length_postorder, ← length_postorder, ← List.length_append,
    List.getElem?_concat_length]

theorem edge_negation_iff (h : g.Hosts first (.negation f)) {child : Nat} {side : Side} :
    ⟨first + f.size, child, side⟩ ∈ g.edges ↔ child = f.rootFrom first ∧ side = .operand := by
  rw [h.edges _ (Nat.le_add_right _ _) (by rw [size]; simp only; omega), edgesFrom,
    List.mem_append, List.mem_singleton]
  constructor
  · rintro (hmem | heq)
    · have hsource := source_of_mem_edgesFrom hmem
      simp only at hsource
      omega
    · simpa using heq
  · rintro ⟨rfl, rfl⟩
    exact .inr rfl

theorem edge_binary_iff (h : g.Hosts first (.binary c f f')) {child : Nat} {side : Side} :
    ⟨first + f.size + f'.size, child, side⟩ ∈ g.edges ↔
      (child = f.rootFrom first ∧ side = .left) ∨
        (child = f'.rootFrom (first + f.size) ∧ side = .right) := by
  rw [h.edges _ (by simp only; omega) (by rw [size]; simp only; omega), mem_edgesFrom_binary]
  constructor
  · rintro (hmem | hmem | heq | heq)
    · have hsource := source_of_mem_edgesFrom hmem
      have hpos := f'.size_pos
      simp only at hsource
      omega
    · have hsource := source_of_mem_edgesFrom hmem
      simp only at hsource
      omega
    · left
      simpa using heq
    · right
      simpa using heq
  · rintro (⟨rfl, rfl⟩ | ⟨rfl, rfl⟩)
    · exact .inr (.inr (.inl rfl))
    · exact .inr (.inr (.inr rfl))

end Hosts

/-- A formula in a graph has its truth value there and no other. -/
theorem Hosts.evaluates_iff {g : FormulaGraph} {first : Nat} {f : Formula} {v : Valuation}
    {b : Bool} (h : g.Hosts first f) :
    g.Evaluates v (f.rootFrom first) b ↔ b = f.holds v := by
  induction f generalizing first b with
  | atom name => exact evaluates_push_iff h.isNodeOf_atom
  | negation f ih =>
      rw [rootFrom_negation, evaluates_not_iff h.isNodeOf_negation]
      constructor
      · rintro ⟨child, d, hedge, heval, rfl⟩
        obtain ⟨rfl, _⟩ := h.edge_negation_iff.1 hedge
        rw [holds, (ih h.operand).1 heval]
      · rintro rfl
        exact ⟨_, f.holds v, h.edge_negation_iff.2 ⟨rfl, rfl⟩, (ih h.operand).2 rfl, rfl⟩
  | binary c f f' ihf ihf' =>
      rw [rootFrom_binary, evaluates_binary_iff h.isNodeOf_binary]
      constructor
      · rintro ⟨left, right, d, e, hleft, hright, hd, he, rfl⟩
        obtain ⟨rfl, _⟩ | ⟨_, hside⟩ := h.edge_binary_iff.1 hleft
        · obtain ⟨_, hside⟩ | ⟨rfl, _⟩ := h.edge_binary_iff.1 hright
          · cases hside
          · rw [holds, (ihf h.left).1 hd, (ihf' h.right).1 he]
        · cases hside
      · rintro rfl
        exact ⟨_, _, f.holds v, f'.holds v, h.edge_binary_iff.2 (.inl ⟨rfl, rfl⟩),
          h.edge_binary_iff.2 (.inr ⟨rfl, rfl⟩), (ihf h.left).2 rfl, (ihf' h.right).2 rfl, rfl⟩

/-! ## The graph of a formula -/

theorem mem_nodes_graph_iff {f : Formula} {n : Node} :
    n ∈ f.graph.nodes ↔ ∃ i, f.postorder[n.id]? = some i ∧ n.label = i.text ∧
      n.kind = .ofInstruction i ∧ n.isRoot = (n.id == f.root) := by
  obtain ⟨id, label, kind, isRoot⟩ := n
  simp only [Formula.graph, List.mem_map, Prod.exists, List.mem_zipIdx_iff_getElem?,
    Node.mk.injEq]
  constructor
  · rintro ⟨i, k, hk, rfl, rfl, rfl, rfl⟩
    exact ⟨i, hk, rfl, rfl, rfl⟩
  · rintro ⟨i, hk, rfl, rfl, rfl⟩
    exact ⟨i, id, hk, rfl, rfl, rfl, rfl⟩

theorem hosts_graph (f : Formula) : f.graph.Hosts 0 f := by
  constructor
  case nodes =>
    intro k i hk
    rw [Nat.zero_add]
    refine ⟨⟨⟨k, i.text, .ofInstruction i, k == f.root⟩, ?_, rfl⟩, ?_⟩
    · exact mem_nodes_graph_iff.2 ⟨i, hk, rfl, rfl, rfl⟩
    · rintro n hn rfl
      obtain ⟨j, hj, hlabel, hkind, _⟩ := mem_nodes_graph_iff.1 hn
      cases hk.symm.trans hj
      exact ⟨hlabel, hkind⟩
  case edges => exact fun _ _ _ => Iff.rfl

theorem root?_graph (f : Formula) : f.graph.root? = some f.root := by
  have hlt : f.root < f.postorder.length := by
    have hpos := f.size_pos
    rw [length_postorder, Formula.root, rootFrom]
    omega
  rw [root?]
  cases hfind : f.graph.nodes.find? (·.isRoot) with
  | none =>
      let n : Node :=
        ⟨f.root, f.postorder[f.root].text, .ofInstruction f.postorder[f.root], f.root == f.root⟩
      have hn : n ∈ f.graph.nodes :=
        mem_nodes_graph_iff.2 ⟨_, List.getElem?_eq_getElem hlt, rfl, rfl, rfl⟩
      have hnot := List.find?_eq_none.1 hfind n hn
      simp [n] at hnot
  | some n =>
      obtain ⟨_, _, _, _, hroot⟩ := mem_nodes_graph_iff.1 (List.mem_of_find?_eq_some hfind)
      have hmarked : n.isRoot = true := List.find?_some hfind
      rw [hroot, beq_iff_eq] at hmarked
      rw [Option.map_some, hmarked]

/-- A program that builds a graph computes, under every mapping, the one value that the graph has at
its root. -/
theorem evaluates_root_iff {p : Program} {g : FormulaGraph} (h : p.graph = .ok g) (μ : Mapping) :
    ∃ root, g.root? = some root ∧
      ∀ b, g.Evaluates μ.valuation root b ↔ b = p.evaluate μ.valuation := by
  obtain ⟨f, rfl, rfl⟩ := Program.graph_eq_ok_iff.1 h
  refine ⟨f.root, root?_graph f, ?_⟩
  intro b
  rw [f.evaluate_postorder]
  exact (hosts_graph f).evaluates_iff

/-- The operands of a conditional keep their sides. -/
theorem evaluates_root_iff_implies :
    ∃ g, Program.graph [.push "Q", .push "P", .apply .not, .apply (.binary .implies)] = .ok g ∧
      g.edges = [⟨2, 1, .operand⟩, ⟨3, 0, .left⟩, ⟨3, 2, .right⟩] ∧
      ∃ root, g.root? = some root ∧
        ∀ b, g.Evaluates (Mapping.valuation [("P", .truth true)]) root b ↔
          b = Program.evaluate [.push "Q", .push "P", .apply .not, .apply (.binary .implies)]
            (Mapping.valuation [("P", .truth true)]) :=
  ⟨_, rfl, rfl, evaluates_root_iff rfl [("P", .truth true)]⟩

end FormulaGraph

end Sentential
