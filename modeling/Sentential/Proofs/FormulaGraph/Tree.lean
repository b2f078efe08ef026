import Sentential.Proofs.FormulaGraph.Height
import Sentential.Proofs.FormulaGraph.Value
import Sentential.Proofs.Symbol
/-!
# The graph of a program is a tree

The nodes of a formula fill an interval of numbers that ends with its main connective, and the nodes
of its operands fill what lies before, the left operand first.  So every node but the last has one
parent, and a walk that visits operands before their connective visits the nodes in the order of
their numbers.
-/

namespace Sentential

namespace FormulaGraph

/-- The edges that a node of the given instruction has: none for an atom, one to its operand for a
negation, and one to each operand for a binary connective, the left one to the smaller number. -/
def Fits (id : Nat) (edges : List Edge) : Instruction → Prop
  | .push _ => edges = []
  | .apply .not => ∃ child, edges = [⟨id, child, .operand⟩]
  | .apply (.binary _) =>
    ∃ left right, left < right ∧ edges = [⟨id, left, .left⟩, ⟨id, right, .right⟩]

/-- The nodes that a walk from a node visits: those of its left operand, those of its right operand,
then the node itself. -/
inductive Walk (g : FormulaGraph) : Nat → List Nat → Prop
  | atom {id : Nat} : (∀ e ∈ g.edges, e.source ≠ id) → Walk g id [id]
  | negation {id child : Nat} {visited : List Nat} : ⟨id, child, .operand⟩ ∈ g.edges →
      Walk g child visited → Walk g id (visited ++ [id])
  | binary {id left right : Nat} {before after : List Nat} : ⟨id, left, .left⟩ ∈ g.edges →
      ⟨id, right, .right⟩ ∈ g.edges → Walk g left before → Walk g right after →
      Walk g id (before ++ after ++ [id])

/-- The instruction that a node shows. -/
def Node.instruction? (n : Node) : Option Instruction :=
  match n.kind with
  | .atom => some (.push n.label)
  | .operator => (Connective.ofText? n.label).map .apply

/-- The instruction that the node of the given number shows. -/
def instruction? (g : FormulaGraph) (id : Nat) : Option Instruction :=
  (g.nodes.find? (·.id = id)).bind Node.instruction?

/-- A graph is the tree of a program: it has a node for every instruction, the last of them is the
root, and a walk from there reads the program back. -/
structure IsTreeOf (g : FormulaGraph) (p : Program) : Prop where
  length_nodes : g.nodes.length = p.length
  node : ∀ k i, p[k]? = some i →
    g.nodes[k]? = some (Node.mk k i.text (.ofInstruction i) (k + 1 = p.length))
  descends : ∀ e ∈ g.edges, e.target < e.source ∧ e.source < p.length
  parent : ∀ k, k + 1 < p.length → g.edges.countP (·.target = k) = 1
  operands : ∀ k i, p[k]? = some i → Fits k (g.outgoing k) i
  walk : ∃ root, g.root? = some root ∧
    ∀ visited, g.Walk root visited ↔ visited = List.range p.length
  readBack : (List.range p.length).map g.instruction? = p.map some

end FormulaGraph

namespace Formula

open FormulaGraph

theorem rootFrom_add_one (f : Formula) (first : Nat) : f.rootFrom first + 1 = first + f.size := by
  have hpos := f.size_pos
  rw [rootFrom]
  omega

theorem target_of_mem_edgesFrom {f : Formula} {first : Nat} {e : Edge}
    (h : e ∈ f.edgesFrom first) : first ≤ e.target ∧ e.target < e.source := by
  induction f generalizing first with
  | atom name => simp [edgesFrom] at h
  | negation f ih =>
      have hf := f.rootFrom_add_one first
      have hpos := f.size_pos
      rw [edgesFrom, List.mem_append, List.mem_singleton] at h
      rcases h with h | rfl
      · exact ih h
      · simp only
        omega
  | binary c f g ihf ihg =>
      have hf := f.rootFrom_add_one first
      have hg := g.rootFrom_add_one (first + f.size)
      have hfpos := f.size_pos
      have hgpos := g.size_pos
      rcases mem_edgesFrom_binary.1 h with h | h | rfl | rfl
      · exact ihf h
      · have := ihg h
        omega
      · simp only
        omega
      · simp only
        omega

/-- Every node but the main connective is the target of one edge. -/
theorem countP_target_edgesFrom (f : Formula) (first k : Nat) :
    (f.edgesFrom first).countP (·.target = k) =
      if first ≤ k ∧ k < f.rootFrom first then 1 else 0 := by
  induction f generalizing first with
  | atom name =>
      have hroot := (atom name).rootFrom_add_one first
      rw [size] at hroot
      rw [if_neg (by omega)]
      rfl
  | negation f ih =>
      have hf := f.rootFrom_add_one first
      have hpos := f.size_pos
      -- the operand lacks an edge to its own root, which is the one that the negation adds
      rw [edgesFrom, List.countP_append, ih, rootFrom_negation]
      simp only [List.countP_cons, List.countP_nil, decide_eq_true_eq]
      split_ifs <;> omega
  | binary c f g ihf ihg =>
      have hf := f.rootFrom_add_one first
      have hg := g.rootFrom_add_one (first + f.size)
      have hfpos := f.size_pos
      have hgpos := g.size_pos
      rw [edgesFrom, List.countP_append, List.countP_append, ihf, ihg, rootFrom_binary]
      simp only [List.countP_cons, List.countP_nil, decide_eq_true_eq]
      split_ifs <;> omega

theorem filter_source_edgesFrom_of_notMem {f : Formula} {first id : Nat}
    (h : id < first ∨ first + f.size ≤ id) :
    (f.edgesFrom first).filter (·.source = id) = [] := by
  rw [List.filter_eq_nil_iff]
  intro e he
  have := source_of_mem_edgesFrom he
  simp only [decide_eq_true_eq]
  omega

theorem getElem?_append_cases {p q : Program} {k : Nat} {i : Instruction}
    (h : (p ++ q)[k]? = some i) :
    (k < p.length ∧ p[k]? = some i) ∨ ∃ j, k = p.length + j ∧ q[j]? = some i := by
  rcases Nat.lt_or_ge k p.length with hk | hk
  · rw [List.getElem?_append_left hk] at h
    exact .inl ⟨hk, h⟩
  · rw [List.getElem?_append_right hk] at h
    exact .inr ⟨k - p.length, by omega, h⟩

theorem getElem?_postorder_negation {f : Formula} {k : Nat} {i : Instruction}
    (h : (negation f).postorder[k]? = some i) :
    (k < f.size ∧ f.postorder[k]? = some i) ∨ (k = f.size ∧ i = .apply .not) := by
  rw [← length_postorder]
  rcases getElem?_append_cases h with hk | ⟨j, rfl, hj⟩
  · exact .inl hk
  · right
    simpa [List.getElem?_singleton, eq_comm] using hj

theorem getElem?_postorder_binary {c : BinaryConnective} {f g : Formula} {k : Nat}
    {i : Instruction} (h : (binary c f g).postorder[k]? = some i) :
    (k < f.size ∧ f.postorder[k]? = some i) ∨
      (∃ j, k = f.size + j ∧ j < g.size ∧ g.postorder[j]? = some i) ∨
      (k = f.size + g.size ∧ i = .apply (.binary c)) := by
  rw [postorder, List.append_assoc] at h
  rw [← f.length_postorder, ← g.length_postorder]
  rcases getElem?_append_cases h with hk | ⟨j, rfl, hj⟩
  · exact .inl hk
  · right
    rcases getElem?_append_cases hj with hj | ⟨m, rfl, hm⟩
    · exact .inl ⟨j, rfl, hj⟩
    · right
      simpa [List.getElem?_singleton, eq_comm] using hm

/-! ## The edges that leave a node

A node lies in one of the operands, or is the connective itself. -/

section Outgoing

variable {c : BinaryConnective} {f g : Formula} {first k : Nat}

theorem filter_source_operand (hk : k < f.size) :
    ((negation f).edgesFrom first).filter (·.source = first + k) =
      (f.edgesFrom first).filter (·.source = first + k) := by
  rw [edgesFrom, List.filter_append, List.filter_cons_of_neg (by simp; omega), List.filter_nil,
    List.append_nil]

theorem filter_source_negation :
    ((negation f).edgesFrom first).filter (·.source = first + f.size) =
      [⟨first + f.size, f.rootFrom first, .operand⟩] := by
  rw [edgesFrom, List.filter_append, filter_source_edgesFrom_of_notMem (.inr (Nat.le_refl _))]
  simp

theorem filter_source_left (hk : k < f.size) :
    ((binary c f g).edgesFrom first).filter (·.source = first + k) =
      (f.edgesFrom first).filter (·.source = first + k) := by
  rw [edgesFrom, List.filter_append, List.filter_append,
    filter_source_edgesFrom_of_notMem (f := g) (.inl (by omega)),
    List.filter_cons_of_neg (by simp; omega), List.filter_cons_of_neg (by simp; omega),
    List.filter_nil, List.append_nil, List.append_nil]

theorem filter_source_right (hk : k < g.size) :
    ((binary c f g).edgesFrom first).filter (·.source = first + f.size + k) =
      (g.edgesFrom (first + f.size)).filter (·.source = first + f.size + k) := by
  rw [edgesFrom, List.filter_append, List.filter_append,
    filter_source_edgesFrom_of_notMem (f := f) (.inr (by omega)),
    List.filter_cons_of_neg (by simp; omega), List.filter_cons_of_neg (by simp; omega),
    List.filter_nil, List.append_nil, List.nil_append]

theorem filter_source_binary :
    ((binary c f g).edgesFrom first).filter (·.source = first + f.size + g.size) =
      [⟨first + f.size + g.size, f.rootFrom first, .left⟩,
        ⟨first + f.size + g.size, g.rootFrom (first + f.size), .right⟩] := by
  have hpos := g.size_pos
  rw [edgesFrom, List.filter_append, List.filter_append,
    filter_source_edgesFrom_of_notMem (f := f) (.inr (by omega)),
    filter_source_edgesFrom_of_notMem (f := g) (.inr (Nat.le_refl _))]
  simp

end Outgoing

/-- Every node of a formula has the edges that its instruction asks for and no others. -/
theorem fits_edgesFrom {f : Formula} {first k : Nat} {i : Instruction}
    (h : f.postorder[k]? = some i) :
    Fits (first + k) ((f.edgesFrom first).filter (·.source = first + k)) i := by
  induction f generalizing first k with
  | atom name =>
      obtain ⟨_, hi⟩ := List.getElem?_eq_some_iff.1 h
      obtain rfl : Instruction.push name = i := by simpa [postorder] using hi
      rfl
  | negation f ih =>
      rcases getElem?_postorder_negation h with ⟨hlt, hk⟩ | ⟨rfl, rfl⟩
      · rw [filter_source_operand hlt]
        exact ih hk
      · exact ⟨f.rootFrom first, filter_source_negation⟩
  | binary c f g ihf ihg =>
      rcases getElem?_postorder_binary h with ⟨hlt, hk⟩ | ⟨j, rfl, hlt, hj⟩ | ⟨rfl, rfl⟩
      · rw [filter_source_left hlt]
        exact ihf hk
      · rw [← Nat.add_assoc, filter_source_right hlt]
        exact ihg hj
      · have hleft := f.rootFrom_add_one first
        have hright := g.rootFrom_add_one (first + f.size)
        have hpos := g.size_pos
        rw [← Nat.add_assoc]
        exact ⟨f.rootFrom first, g.rootFrom (first + f.size), by omega, filter_source_binary⟩

end Formula

namespace FormulaGraph

open Formula

/-! ## The walk -/

theorem Hosts.notMem_edges_of_atom {g : FormulaGraph} {first : Nat} {name : String}
    (h : g.Hosts first (.atom name)) {e : Edge} (he : e.source = first) : e ∉ g.edges := by
  intro hmem
  rw [h.edges e (by omega) (by rw [size]; omega)] at hmem
  simp [edgesFrom] at hmem

/-- A walk from the main connective of a formula visits its nodes in the order of their numbers, and
there is no other walk. -/
theorem Hosts.walk_iff {g : FormulaGraph} {first : Nat} {f : Formula} {visited : List Nat}
    (h : g.Hosts first f) :
    g.Walk (f.rootFrom first) visited ↔ visited = List.range' first f.size := by
  induction f generalizing first visited with
  | atom name =>
      rw [show (Formula.atom name).rootFrom first = first from rfl]
      constructor
      · intro hwalk
        cases hwalk with
        | atom _ => rfl
        | negation hedge => exact absurd hedge (h.notMem_edges_of_atom rfl)
        | binary hleft => exact absurd hleft (h.notMem_edges_of_atom rfl)
      · rintro rfl
        exact .atom fun e he hsource => h.notMem_edges_of_atom hsource he
  | negation f ih =>
      rw [rootFrom_negation, size, List.range'_concat, Nat.one_mul]
      constructor
      · intro hwalk
        cases hwalk with
        | atom hnone => exact absurd rfl (hnone _ (h.edge_negation_iff.2 ⟨rfl, rfl⟩))
        | negation hedge hwalk =>
            obtain ⟨rfl, _⟩ := h.edge_negation_iff.1 hedge
            rw [(ih h.operand).1 hwalk]
        | binary hleft => cases (h.edge_negation_iff.1 hleft).2
      · rintro rfl
        exact .negation (h.edge_negation_iff.2 ⟨rfl, rfl⟩) ((ih h.operand).2 rfl)
  | binary c f f' ihf ihf' =>
      -- the interval is that of the left operand, that of the right operand, and the connective
      rw [rootFrom_binary, size, List.range'_concat, Nat.one_mul, ← List.range'_append_1,
        ← Nat.add_assoc]
      constructor
      · intro hwalk
        cases hwalk with
        | atom hnone => exact absurd rfl (hnone _ (h.edge_binary_iff.2 (.inl ⟨rfl, rfl⟩)))
        | negation hedge =>
            rcases h.edge_binary_iff.1 hedge with ⟨_, hside⟩ | ⟨_, hside⟩ <;> cases hside
        | binary hleft hright hbefore hafter =>
            obtain ⟨rfl, _⟩ | ⟨_, hside⟩ := h.edge_binary_iff.1 hleft
            · obtain ⟨_, hside⟩ | ⟨rfl, _⟩ := h.edge_binary_iff.1 hright
              · cases hside
              · rw [(ihf h.left).1 hbefore, (ihf' h.right).1 hafter]
            · cases hside
      · rintro rfl
        exact .binary (h.edge_binary_iff.2 (.inl ⟨rfl, rfl⟩))
          (h.edge_binary_iff.2 (.inr ⟨rfl, rfl⟩)) ((ihf h.left).2 rfl) ((ihf' h.right).2 rfl)

/-! ## The graph of a formula -/

theorem Node.instruction?_eq {n : Node} {i : Instruction} (hlabel : n.label = i.text)
    (hkind : n.kind = .ofInstruction i) : n.instruction? = some i := by
  rw [instruction?, hkind, hlabel]
  cases i with
  | push name => rfl
  | apply c =>
      rw [Instruction.text]
      exact congrArg (Option.map Instruction.apply) c.ofText?_text

theorem instruction?_graph (f : Formula) (id : Nat) :
    f.graph.instruction? id = f.postorder[id]? := by
  rw [FormulaGraph.instruction?]
  cases hfind : f.graph.nodes.find? (·.id = id) with
  | none =>
      cases hget : f.postorder[id]? with
      | none => rfl
      | some i =>
          obtain ⟨⟨n, hn, hid⟩, _⟩ := (hosts_graph f).nodes id i hget
          rw [Nat.zero_add] at hid
          exact absurd (List.find?_eq_none.1 hfind n hn) (by simp [hid])
  | some n =>
      obtain ⟨i, hget, hlabel, hkind, _⟩ :=
        mem_nodes_graph_iff.1 (List.mem_of_find?_eq_some hfind)
      have hid : n.id = id := by simpa using List.find?_some hfind
      rw [Option.bind_some, Node.instruction?_eq hlabel hkind, ← hget, hid]

theorem isTreeOf_graph (f : Formula) : f.graph.IsTreeOf f.postorder := by
  have hroot := f.rootFrom_add_one 0
  rw [Nat.zero_add] at hroot
  constructor
  case length_nodes => simp [Formula.graph]
  case node =>
    intro k i hk
    have hlast : (k == f.root) = decide (k + 1 = f.postorder.length) := by
      rw [length_postorder, Formula.root, Bool.eq_iff_iff, beq_iff_eq, decide_eq_true_iff]
      omega
    rw [Formula.graph, List.getElem?_map, List.getElem?_zipIdx, hk, ← hlast]
    simp
  case descends =>
    intro e he
    have hsource := source_of_mem_edgesFrom he
    rw [length_postorder]
    exact ⟨(target_of_mem_edgesFrom he).2, by omega⟩
  case parent =>
    intro k hk
    rw [length_postorder] at hk
    exact (f.countP_target_edgesFrom 0 k).trans (if_pos (by omega))
  case operands =>
    intro k i hk
    have hfits : Fits (0 + k) ((f.edgesFrom 0).filter (·.source = 0 + k)) i := fits_edgesFrom hk
    rwa [Nat.zero_add] at hfits
  case walk =>
    refine ⟨f.root, root?_graph f, ?_⟩
    intro visited
    rw [length_postorder, List.range_eq_range']
    exact (hosts_graph f).walk_iff
  case readBack =>
    apply List.ext_getElem?
    intro k
    rw [List.getElem?_map, List.getElem?_map]
    by_cases hk : k < f.postorder.length
    · simp [hk, instruction?_graph]
    · simp [hk]

end FormulaGraph

namespace Program

open FormulaGraph

/-- A program builds a graph exactly if it is the postorder program of a formula, and the graph is
then its tree.  Otherwise the first connective without its operands is at fault, or, if there is
none, the number of values that are left. -/
theorem graph_outcome (p : Program) :
    ((∃ g, p.graph = .ok g) ↔ ∃ f : Formula, p = f.postorder) ∧
    (∀ k c, p.FirstMissing k c → p.graph = .error (.missingOperand c k)) ∧
    ((∀ k c, ¬ p.MissingAt k c) →
      (p.height ≠ 1 → p.graph = .error (.valueCount p.height)) ∧
      (p.height = 1 → ∃ g, p.graph = .ok g ∧ g.IsTreeOf p)) := by
  refine ⟨?_, ?_, ?_⟩
  · constructor
    · rintro ⟨g, hg⟩
      obtain ⟨f, hf, _⟩ := graph_eq_ok_iff.1 hg
      exact ⟨f, hf⟩
    · rintro ⟨f, hf⟩
      exact ⟨f.graph, graph_eq_ok_iff.2 ⟨f, hf, rfl⟩⟩
  · intro k c h
    rw [graph_eq, formula_of_firstMissing h]
    rfl
  · intro h
    rcases formula_of_not_missingAt h with ⟨hone, f, hf⟩ | ⟨hne, herror⟩
    · refine ⟨fun hne => absurd hone hne, fun _ => ?_⟩
      obtain rfl := formula_eq_ok_iff.1 hf
      exact ⟨f.graph, graph_eq_ok_iff.2 ⟨f, rfl, rfl⟩, isTreeOf_graph f⟩
    · refine ⟨fun _ => ?_, fun hone => absurd hone hne⟩
      rw [graph_eq, herror]
      rfl

/-- A conjunction without its right operand is at fault before the negation after it is reached, two
values are one too many, and both occurrences of an atom are nodes of the tree. -/
theorem graph_outcome_occurrences :
    FirstMissing [.push "P", .apply (.binary .and), .apply .not] 1 (.binary .and) ∧
      graph [.push "P", .apply (.binary .and), .apply .not] =
        .error (.missingOperand (.binary .and) 1) ∧
      graph [.push "P", .push "Q"] = .error (.valueCount 2) ∧
      ∃ g, graph [.push "P", .push "P", .apply .not, .apply (.binary .or)] = .ok g ∧
        g.IsTreeOf [.push "P", .push "P", .apply .not, .apply (.binary .or)] := by
  have hfirst : FirstMissing [.push "P", .apply (.binary .and), .apply .not] 1 (.binary .and) :=
    ⟨by decide, fun j hj d => by
      obtain rfl : j = 0 := by omega
      exact fun hmissing => absurd hmissing.getElem?_eq (by simp)⟩
  have hpair : ∀ k c, ¬ MissingAt [.push "P", .push "Q"] k c := by
    intro k c hmissing
    have hall : ∀ k < 2, ∀ c ∈ Connective.all, ¬ MissingAt [.push "P", .push "Q"] k c := by
      decide
    exact hall k hmissing.lt_length c c.mem_all hmissing
  have hor : ∀ k c,
      ¬ MissingAt [.push "P", .push "P", .apply .not, .apply (.binary .or)] k c := by
    intro k c hmissing
    have hall : ∀ k < 4, ∀ c ∈ Connective.all,
        ¬ MissingAt [.push "P", .push "P", .apply .not, .apply (.binary .or)] k c := by
      decide
    exact hall k hmissing.lt_length c c.mem_all hmissing
  exact ⟨hfirst, (graph_outcome _).2.1 1 _ hfirst,
    ((graph_outcome _).2.2 hpair).1 (by decide), ((graph_outcome _).2.2 hor).2 rfl⟩

end Program

end Sentential
