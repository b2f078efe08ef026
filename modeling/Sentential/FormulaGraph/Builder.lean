import Sentential.FormulaGraph.Basic
import Sentential.FormulaGraph.Replay
/-!
# Building the graph of a program

A program is replayed on a stack of node numbers.  Every instruction becomes the next node.  A
connective takes its operands from the stack and sends an edge to each of them, and the node that
is left at the end is the root.
-/

namespace Sentential

namespace FormulaGraph

/-- A graph under construction.  The nodes that wait for a connective are on the stack, the latest
first. -/
structure Builder where
  nodes : List Node := []
  edges : List Edge := []
  stack : List Nat := []

namespace Builder

/-- Adds the node of an instruction, with an edge to each operand, and puts it on a stack. -/
def add (b : Builder) (i : Instruction) (operands : List (Nat × Side)) (stack : List Nat) :
    Builder where
  nodes := b.nodes ++ [⟨b.nodes.length, i.text, .ofInstruction i, false⟩]
  edges := b.edges ++ operands.map fun (n, side) => ⟨b.nodes.length, n, side⟩
  stack := b.nodes.length :: stack

def step (b : Builder) : Instruction → Except ReplayError Builder
  | .push name => .ok (b.add (.push name) [] b.stack)
  | .apply .not =>
    match b.stack with
    | child :: rest => .ok (b.add (.apply .not) [(child, .operand)] rest)
    | [] => .error (.missingOperand .not b.nodes.length)
  | .apply (.binary c) =>
    match b.stack with
    | right :: left :: rest =>
      .ok (b.add (.apply (.binary c)) [(left, .left), (right, .right)] rest)
    | _ => .error (.missingOperand (.binary c) b.nodes.length)

/-- Marks the one node that is left as the root. -/
def finish (b : Builder) : Except ReplayError FormulaGraph :=
  match b.stack with
  | [root] =>
    .ok ⟨b.nodes.map fun n => if n.id = root then { n with isRoot := true } else n, b.edges⟩
  | stack => .error (.valueCount stack.length)

end Builder

end FormulaGraph

/-- The graph of a program. -/
def Program.graph (p : Program) : Except ReplayError FormulaGraph := do
  (← p.foldlM FormulaGraph.Builder.step {}).finish

end Sentential
