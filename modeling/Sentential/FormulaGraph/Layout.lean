import Sentential.FormulaGraph.Basic
import Sentential.Number.Binary
/-!
# Laying out the tree of a formula

The occurrences of atoms stand side by side at whole horizontal coordinates, in the order of
the formula.  A negation stands above its operand and a binary connective midway above its two.
The vertical coordinate is minus the depth.

A graph is laid out from its root downwards, with the next free coordinate of an atom kept along the
way.  For the graph of a formula the tree tells each of these coordinates beforehand.  The stack that
a deep descent needs is not limited here.
-/

namespace Sentential

/-- The place of a node. -/
structure Spot where
  x : Rat
  y : Rat
  deriving DecidableEq

namespace FormulaGraph

/-! ## The layout of a graph -/

/-- A node with its place. -/
structure PlacedNode where
  id : Nat
  spot : Spot
  deriving DecidableEq

/-- What has been placed so far, and the coordinate of the next node that has none below it. -/
structure Placing where
  next : Nat
  placed : List PlacedNode

/-- The nodes to which edges run from a node, those on the right last. -/
def children (g : FormulaGraph) (id : Nat) : List Nat :=
  let edges := g.outgoing id
  (edges.filter (·.side ≠ .right) ++ edges.filter (·.side = .right)).map (·.target)

/-- The sum of numbers, added one after the other, divided by their count. -/
def mean (add : Rat → Rat → Rat) : List Rat → Rat
  | [] => 0
  | x :: xs => xs.foldl add x / (xs.length + 1)

/-- Places a node after all nodes below it and tells its horizontal coordinate.  In a tree no way
down is longer than there are nodes, which bounds the depth. -/
def placeNode (g : FormulaGraph) (add : Rat → Rat → Rat) :
    (bound node depth : Nat) → StateM Placing Rat
  | 0, _, _ => return 0
  | bound + 1, node, depth => do
    let x ← match g.children node with
      | [] => modifyGet fun s => ((s.next : Rat), { s with next := s.next + 1 })
      | children => mean add <$> children.mapM fun child => g.placeNode add bound child (depth + 1)
    modify fun s => { s with placed := s.placed ++ [⟨node, x, -depth⟩] }
    return x

/-- The places of the nodes, if there is a root from which to start. -/
def layoutBy? (g : FormulaGraph) (add : Rat → Rat → Rat) : Option (List PlacedNode) :=
  g.root?.map fun root => ((g.placeNode add g.nodes.length root 0).run ⟨0, []⟩).2.placed

/-- The layout over the rational numbers. -/
def layout? (g : FormulaGraph) : Option (List PlacedNode) := g.layoutBy? (· + ·)

/-- The layout with coordinates of 53 significant bits.  Halving loses none of them. -/
def binaryLayout? (g : FormulaGraph) : Option (List PlacedNode) :=
  g.layoutBy? fun x y => Number.binaryRound (x + y)

end FormulaGraph

namespace Formula

/-! ## The layout of a formula -/

/-- The places of the nodes in the order of their numbers, and the horizontal coordinate of the
main connective.  The leftmost atom stands at `leaf`, the main connective at `depth`. -/
def place (mean : Rat → Rat → Rat) (leaf depth : Nat) : Formula → List Spot × Rat
  | .atom _ => ([⟨leaf, -depth⟩], leaf)
  | .negation f =>
    let (spots, x) := f.place mean leaf (depth + 1)
    (spots ++ [⟨x, -depth⟩], x)
  | .binary _ f g =>
    let (left, x) := f.place mean leaf (depth + 1)
    let (right, y) := g.place mean (leaf + f.leafCount) (depth + 1)
    (left ++ right ++ [⟨mean x y, -depth⟩], mean x y)

/-- The layout over the rational numbers. -/
def layout (f : Formula) : List Spot := (f.place (fun x y => (x + y) / 2) 0 0).1

end Formula

end Sentential
