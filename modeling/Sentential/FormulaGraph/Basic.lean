import Sentential.Formula
/-!
# The graph of a formula

Every occurrence of an atom and every connective is a node.  Nodes are numbered in the order of
the instructions, so that operands come before their connective and the main connective comes last.
Edges run from a connective to its operands; they are listed by their source, left before right.
-/

namespace Sentential

namespace FormulaGraph

inductive NodeKind where
  | atom
  | operator
  deriving DecidableEq

namespace NodeKind

def name : NodeKind → String
  | .atom => "variable"
  | .operator => "operator"

/-- The kind of the node of an instruction. -/
def ofInstruction : Instruction → NodeKind
  | .push _ => .atom
  | .apply _ => .operator

end NodeKind

/-- The place of an operand. -/
inductive Side where
  | left
  | right
  | operand
  deriving DecidableEq

namespace Side

def name : Side → String
  | .left => "left"
  | .right => "right"
  | .operand => "operand"

end Side

structure Node where
  id : Nat
  label : String
  kind : NodeKind
  isRoot : Bool
  deriving DecidableEq

structure Edge where
  source : Nat
  target : Nat
  side : Side
  deriving DecidableEq

end FormulaGraph

/-- A graph with numbered nodes and directed edges. -/
structure FormulaGraph where
  nodes : List FormulaGraph.Node
  edges : List FormulaGraph.Edge
  deriving DecidableEq

namespace FormulaGraph

/-- The number of the first node that is marked as the root. -/
def root? (g : FormulaGraph) : Option Nat := (g.nodes.find? (·.isRoot)).map (·.id)

/-- The edges that leave a node. -/
def outgoing (g : FormulaGraph) (id : Nat) : List Edge := g.edges.filter (·.source = id)

end FormulaGraph

namespace Formula

open FormulaGraph

/-- The number of the main connective of a formula whose first node has number `first`. -/
def rootFrom (first : Nat) (f : Formula) : Nat := first + f.size - 1

/-- The edges of a formula whose first node has number `first`. -/
def edgesFrom (first : Nat) : Formula → List Edge
  | .atom _ => []
  | .negation f =>
    f.edgesFrom first ++ [⟨first + f.size, f.rootFrom first, .operand⟩]
  | .binary _ f g =>
    let second := first + f.size
    f.edgesFrom first ++ g.edgesFrom second ++
      [⟨second + g.size, f.rootFrom first, .left⟩, ⟨second + g.size, g.rootFrom second, .right⟩]

/-- The number of the main connective. -/
def root (f : Formula) : Nat := f.rootFrom 0

/-- The graph of a formula. -/
def graph (f : Formula) : FormulaGraph where
  nodes := f.postorder.zipIdx.map fun (i, id) =>
    ⟨id, i.text, .ofInstruction i, id == f.root⟩
  edges := f.edgesFrom 0

end Formula

end Sentential
