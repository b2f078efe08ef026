import Sentential.FormulaGraph.Page
import Sentential.Proofs.FormulaGraph.Tree
/-!
# The records of a page

The page of a graph has one record for every instruction of the program and one for every edge, and
the graph, and with it the program, can be read back from the records.
-/

namespace Sentential

namespace FormulaGraph

/-! ## Reading the records back -/

/-- The text of a label, which is empty if a number stands in its place. -/
def PageLabel.written : PageLabel → String
  | .text s => s
  | .number _ => ""

def NodeKind.ofPageColour? (colour : String) : Option NodeKind :=
  [NodeKind.atom, .operator].find? (·.pageColour == colour)

def Side.ofName? (name : String) : Option Side :=
  [Side.left, .right, .operand].find? (·.name == name)

/-- The node that a record shows. -/
def PageNode.node? (n : PageNode) : Option Node :=
  (NodeKind.ofPageColour? n.colour).map fun kind => ⟨n.id, n.label.written, kind, n.size = 25⟩

/-- The instruction that a record shows. -/
def PageNode.instruction? (n : PageNode) : Option Instruction := n.node?.bind Node.instruction?

/-- The edge that a record shows. -/
def PageEdge.edge? (e : PageEdge) : Option Edge :=
  (Side.ofName? e.label).map fun side => ⟨e.source, e.target, side⟩

theorem NodeKind.ofPageColour?_pageColour (kind : NodeKind) :
    ofPageColour? kind.pageColour = some kind := by
  cases kind <;> decide

theorem Side.ofName?_name (side : Side) : ofName? side.name = some side := by
  cases side <;> decide

theorem PageNode.node?_record (n : Node) : n.call.record.node? = some n := by
  obtain ⟨id, label, kind, isRoot⟩ := n
  -- a number is shown exactly for the empty label, so nothing is lost by it
  have hlabel : (Node.call ⟨id, label, kind, isRoot⟩).record.label.written = label := by
    by_cases hempty : label = ""
    · simp [Node.call, NodeCall.record, hempty, PageLabel.written]
    · simp [Node.call, NodeCall.record, hempty, PageLabel.written]
  have hsize : decide ((Node.call ⟨id, label, kind, isRoot⟩).record.size = 25) = isRoot := by
    cases isRoot <;> rfl
  have hkind :
      NodeKind.ofPageColour? (Node.call ⟨id, label, kind, isRoot⟩).record.colour = some kind :=
    kind.ofPageColour?_pageColour
  rw [node?, hkind, hlabel, hsize]
  rfl

theorem PageEdge.edge?_call (e : Edge) : e.call.edge? = some e := by
  have hside : Side.ofName? e.call.label = some e.side := e.side.ofName?_name
  rw [edge?, hside]
  rfl

namespace Page

/-- The graph that the page shows. -/
def graph? (page : Page) : Option FormulaGraph := do
  let nodes ← page.nodes.mapM PageNode.node?
  let edges ← page.edges.mapM PageEdge.edge?
  return ⟨nodes, edges⟩

/-- The program that the records of the page show one after the other. -/
def program? (page : Page) : Option Program := page.nodes.mapM PageNode.instruction?

end Page

/-- Records that are read back one by one are read back as a list. -/
theorem mapM_map_eq_some {α β γ : Type} {f : α → β} {g : β → Option γ} {r : α → γ}
    (h : ∀ x, g (f x) = some (r x)) (xs : List α) : (xs.map f).mapM g = some (xs.map r) := by
  have hcomp : g ∘ f = fun x => pure (r x) := funext h
  rw [List.mapM_map, hcomp, List.mapM_pure]
  rfl

theorem graph?_page (g : FormulaGraph) (height width : String) :
    (g.network height width).page.graph? = some g := by
  have hnodes := mapM_map_eq_some PageNode.node?_record g.nodes
  have hedges := mapM_map_eq_some PageEdge.edge?_call g.edges
  rw [List.map_id'] at hnodes hedges
  simp only [Page.graph?, Network.page, network, List.map_map]
  rw [show NodeCall.record ∘ Node.call = fun n => n.call.record from rfl, hnodes, hedges]
  rfl

theorem program?_page (f : Formula) (height width : String) :
    (f.graph.network height width).page.program? = some f.postorder := by
  have hrecord : ∀ x : Instruction × Nat,
      (Node.call ⟨x.2, x.1.text, .ofInstruction x.1, x.2 == f.root⟩).record.instruction? =
        some x.1 := by
    intro x
    rw [PageNode.instruction?, PageNode.node?_record]
    exact Node.instruction?_eq rfl rfl
  have hrecords := mapM_map_eq_some hrecord f.postorder.zipIdx
  rw [List.zipIdx_map_fst] at hrecords
  rw [Page.program?, Network.page, network, Formula.graph, List.map_map, List.map_map]
  exact hrecords

/-! ## What a page shows -/

/-- What the last line of a tooltip says of the main connective. -/
def mainNotice : String := "\nMain connective"

/-- The record of the instruction at a position. -/
structure PageNode.Shows (n : PageNode) (k : Nat) (i : Instruction) (isLast : Prop) : Prop where
  id : n.id = k
  label : n.label = if i.text = "" then .number k else .text i.text
  colour : n.colour = match i with
    | .push _ => "#87CEEB"
    | .apply _ => "#FF8C00"
  size_of_last : isLast → n.size = 25
  size_of_not_last : ¬ isLast → n.size = 20
  tooltip : mainNotice.toList <:+ n.tooltip.toList ↔ isLast

/-- A tooltip without the notice ends with the kind of the node. -/
theorem not_mainNotice_suffix (kind : NodeKind) (text : List Char) :
    ¬ mainNotice.toList <:+ text ++ kind.name.toList := by
  intro h
  -- of two ends of one text the shorter is an end of the longer
  have hkind : kind.name.toList <:+ mainNotice.toList := by
    refine List.suffix_of_suffix_length_le (List.suffix_append _ _) h ?_
    cases kind <;> decide
  revert hkind
  cases kind <;> decide

theorem PageNode.shows_record (k : Nat) (i : Instruction) (isLast : Bool) :
    (Node.call ⟨k, i.text, .ofInstruction i, isLast⟩).record.Shows k i (isLast = true) := by
  constructor
  case id => rfl
  case label => simp [Node.call, NodeCall.record]
  case colour => cases i <;> rfl
  case size_of_last =>
    rintro rfl
    rfl
  case size_of_not_last =>
    intro hlast
    rw [Bool.not_eq_true] at hlast
    subst hlast
    rfl
  case tooltip =>
    cases isLast with
    | true =>
        refine iff_of_true ?_ rfl
        simp only [Node.call, NodeCall.record, if_true, String.toList_append]
        exact List.suffix_append _ _
    | false =>
        refine iff_of_false ?_ Bool.false_ne_true
        simp only [Node.call, NodeCall.record, Bool.false_eq_true, if_false, String.append_empty,
          String.toList_append]
        exact not_mainNotice_suffix _ _

/-- The page has the records of a program and of its graph, and nothing of either is lost. -/
structure Page.Shows (page : Page) (p : Program) (g : FormulaGraph) : Prop where
  length_nodes : page.nodes.length = p.length
  node : ∀ k i, p[k]? = some i →
    ∃ n : PageNode, page.nodes[k]? = some n ∧ n.Shows k i (k + 1 = p.length)
  edges : page.edges = g.edges.map fun e =>
    ⟨e.source, e.target, e.side.name, e.side.name, "to"⟩
  graph? : page.graph? = some g
  program? : page.program? = some p

theorem shows_page (f : Formula) (height width : String) :
    (f.graph.network height width).page.Shows f.postorder f.graph := by
  have htree := isTreeOf_graph f
  constructor
  case length_nodes =>
    rw [Network.page, network, List.length_map, List.length_map]
    exact htree.length_nodes
  case node =>
    intro k i hk
    let n : Node := ⟨k, i.text, .ofInstruction i, k + 1 = f.postorder.length⟩
    have hrecord : (f.graph.network height width).page.nodes[k]? = some n.call.record := by
      rw [Network.page, network, List.getElem?_map, List.getElem?_map, htree.node k i hk]
      rfl
    have hshows := PageNode.shows_record k i (k + 1 = f.postorder.length)
    rw [decide_eq_true_eq] at hshows
    exact ⟨n.call.record, hrecord, hshows⟩
  case edges => rfl
  case graph? => exact graph?_page f.graph height width
  case program? => exact program?_page f height width

/-- A graph of a formula has one node for every number, and its edges run between nodes. -/
theorem isSimple_network (f : Formula) (height width : String) :
    (f.graph.network height width).IsSimple := by
  have htree := isTreeOf_graph f
  have hids : (f.graph.network height width).nodes.map NodeCall.id =
      List.range f.postorder.length := by
    rw [network, Formula.graph, List.map_map, List.map_map, List.range_eq_range',
      ← List.zipIdx_map_snd 0]
    exact List.map_congr_left fun x _ => rfl
  constructor
  case nodup =>
    rw [hids]
    exact List.nodup_range
  case edges =>
    intro e he
    obtain ⟨e', he', rfl⟩ := List.mem_map.1 he
    obtain ⟨htarget, hsource⟩ := htree.descends e' he'
    rw [hids, List.mem_range, List.mem_range]
    exact ⟨hsource, Nat.lt_trans htarget hsource⟩

end FormulaGraph

end Sentential
