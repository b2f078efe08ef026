import Sentential.FormulaGraph.Builder
import Sentential.Proofs.FormulaGraph.Replay
/-!
# The graph that a program builds

The builder keeps only the numbers of the nodes that wait.  Replayed side by side with a stack of
formulas, it has built for each of them its nodes and edges, in an interval of numbers that begins
where that of the formula below it ends, and its stack holds their roots.
-/

namespace Sentential

theorem Formula.rootFrom_negation (f : Formula) (first : Nat) :
    (Formula.negation f).rootFrom first = first + f.size := by
  rw [rootFrom, size]
  omega

theorem Formula.rootFrom_binary (c : BinaryConnective) (f g : Formula) (first : Nat) :
    (Formula.binary c f g).rootFrom first = first + f.size + g.size := by
  rw [rootFrom, size]
  omega

namespace FormulaGraph

open Program

namespace Builder

/-- Adds all nodes of a formula and leaves its root on the stack. -/
def addFormula (b : Builder) (f : Formula) : Builder where
  nodes := b.nodes ++ (f.postorder.zipIdx b.nodes.length).map fun (i, id) =>
    ⟨id, i.text, .ofInstruction i, false⟩
  edges := b.edges ++ f.edgesFrom b.nodes.length
  stack := f.rootFrom b.nodes.length :: b.stack

@[simp] theorem length_nodes_addFormula (b : Builder) (f : Formula) :
    (b.addFormula f).nodes.length = b.nodes.length + f.size := by
  simp [addFormula, Formula.length_postorder]

theorem addFormula_negation (b : Builder) (f : Formula) :
    b.addFormula (.negation f) =
      (b.addFormula f).add (.apply .not) [(f.rootFrom b.nodes.length, .operand)] b.stack := by
  rw [add, length_nodes_addFormula]
  simp [addFormula, Formula.rootFrom_negation, Formula.postorder, Formula.edgesFrom,
    Formula.length_postorder, List.zipIdx_append]

theorem addFormula_binary (b : Builder) (c : BinaryConnective) (f g : Formula) :
    b.addFormula (.binary c f g) =
      ((b.addFormula f).addFormula g).add (.apply (.binary c))
        [(f.rootFrom b.nodes.length, .left),
          (g.rootFrom (b.nodes.length + f.size), .right)] b.stack := by
  rw [add, length_nodes_addFormula, length_nodes_addFormula]
  simp [addFormula, Formula.rootFrom_binary, Formula.postorder, Formula.edgesFrom,
    Formula.length_postorder, List.zipIdx_append, Nat.add_assoc]

/-- The builder of a stack of formulas. -/
def ofStack : List Formula → Builder
  | [] => {}
  | f :: stack => (ofStack stack).addFormula f

theorem ofStack_cons (f : Formula) (stack : List Formula) :
    ofStack (f :: stack) = (ofStack stack).addFormula f := rfl

theorem step_push (name : String) (stack : List Formula) :
    step (ofStack stack) (.push name) = .ok (ofStack (.atom name :: stack)) := rfl

theorem step_not (f : Formula) (stack : List Formula) :
    step (ofStack (f :: stack)) (.apply .not) = .ok (ofStack (.negation f :: stack)) :=
  congrArg Except.ok (addFormula_negation _ f).symm

theorem step_binary (c : BinaryConnective) (f g : Formula) (stack : List Formula) :
    step (ofStack (g :: f :: stack)) (.apply (.binary c)) =
      .ok (ofStack (.binary c f g :: stack)) := by
  have hroot : g.rootFrom ((ofStack stack).addFormula f).nodes.length =
      g.rootFrom ((ofStack stack).nodes.length + f.size) := by
    rw [length_nodes_addFormula]
  refine congrArg Except.ok ((addFormula_binary (ofStack stack) c f g).trans ?_).symm
  rw [← hroot]
  rfl

/-- The builder and the stack of formulas take every step together, and fail together. -/
theorem foldlM_step_ofStack (stack : List Formula) (p : Program) :
    p.foldlM step (ofStack stack) =
      (replay (ofStack stack).nodes.length stack p).map ofStack := by
  induction p generalizing stack with
  | nil => rfl
  | cons i p ih =>
      rw [List.foldlM_cons]
      cases i with
      | push name =>
          rw [step_push]
          refine (ih (.atom name :: stack)).trans ?_
          rw [ofStack_cons, length_nodes_addFormula]
          rfl
      | apply c =>
          cases c with
          | not =>
              cases stack with
              | nil => rfl
              | cons f rest =>
                  rw [step_not]
                  refine (ih (.negation f :: rest)).trans ?_
                  simp only [ofStack_cons, length_nodes_addFormula, replay, Formula.size,
                    Nat.add_assoc]
          | binary c =>
              rcases stack with _ | ⟨g, _ | ⟨f, rest⟩⟩
              · rfl
              · rfl
              · rw [step_binary]
                refine (ih (.binary c f g :: rest)).trans ?_
                simp only [ofStack_cons, length_nodes_addFormula, replay, Formula.size,
                  Nat.add_assoc]

theorem finish_ofStack_singleton (f : Formula) : (ofStack [f]).finish = .ok f.graph := by
  have hstack : (ofStack [f]).stack = [f.root] := rfl
  have hedges : (ofStack [f]).edges = f.edgesFrom 0 := rfl
  have hnodes : (ofStack [f]).nodes.map
      (fun n => if n.id = f.root then { n with isRoot := true } else n) = f.graph.nodes := by
    rw [ofStack, addFormula, Formula.graph, ofStack, List.nil_append, List.length_nil,
      List.map_map]
    apply List.map_congr_left
    rintro ⟨i, id⟩ _
    by_cases hid : id = f.root
    · simp [hid]
    · simp [hid]
  simp only [finish, hstack, hedges, hnodes]
  rfl

theorem length_stack_ofStack (stack : List Formula) :
    (ofStack stack).stack.length = stack.length := by
  induction stack with
  | nil => rfl
  | cons f stack ih => exact congrArg Nat.succ ih

end Builder

end FormulaGraph

namespace Program

open FormulaGraph

/-- A program builds the graph of the formula that it denotes, and fails where it denotes none. -/
theorem graph_eq (p : Program) : p.graph = p.formula.map Formula.graph := by
  have hfold : p.foldlM Builder.step {} = (replay 0 [] p).map Builder.ofStack :=
    Builder.foldlM_step_ofStack [] p
  rw [graph, formula, hfold]
  cases replay 0 [] p with
  | error e => rfl
  | ok stack =>
      rcases stack with _ | ⟨f, _ | ⟨g, rest⟩⟩
      · rfl
      · exact Builder.finish_ofStack_singleton f
      · exact congrArg (fun count => Except.error (ReplayError.valueCount count))
          (Builder.length_stack_ofStack (f :: g :: rest))

theorem graph_eq_ok_iff {p : Program} {g : FormulaGraph} :
    p.graph = .ok g ↔ ∃ f : Formula, p = f.postorder ∧ g = f.graph := by
  rw [graph_eq]
  constructor
  · intro h
    cases hformula : p.formula with
    | error e =>
        rw [hformula] at h
        cases h
    | ok f =>
        rw [hformula] at h
        cases h
        exact ⟨f, formula_eq_ok_iff.1 hformula, rfl⟩
  · rintro ⟨f, hp, rfl⟩
    rw [formula_eq_ok_iff.2 hp]
    rfl

end Program

end Sentential
