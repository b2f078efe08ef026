import Sentential.FormulaGraph.Basic
import Sentential.FormulaGraph.Layout
import Sentential.Surface
/-!
# Plotting the graph of a formula

The plot shows every node at its place in the layout, coloured by its kind and labelled, and an
arrow for every edge, drawn in the order of the edges.  Nodes and labels can be put on any surface,
arrows only where they have an outline.
-/

namespace Sentential

namespace FormulaGraph

/-- A label and the place of its node. -/
structure PlotLabel where
  text : String
  spot : Spot
  fontSize : Nat

structure Plot where
  surface : Surface
  title : String
  spots : List Spot
  colours : List String
  labels : List PlotLabel
  arrows : Nat

namespace Plot

/-- The title of a plot where none is given. -/
def defaultTitle : String := "Formula graph"

end Plot

namespace NodeKind

def plotColour : NodeKind → String
  | .atom => "#87ceeb"
  | .operator => "#ffa500"

end NodeKind

/-- Where a layout places a node. -/
def spotOf? (placed : List PlacedNode) (id : Nat) : Option Spot :=
  (placed.find? (·.id = id)).map (·.spot)

/-- Why the first of the arrows without an outline has none. -/
def arrowError? (g : FormulaGraph) (placed : List PlacedNode) (s : Surface) :
    Option OutlineError :=
  g.edges.findSome? fun edge =>
    (spotOf? placed edge.source).bind fun spot => s.outlineError? spot.x spot.y

/-- The plot of a graph, every node of which is below its root. -/
def plot (g : FormulaGraph) (title? : Option String) (surface? : Option Surface) :
    Except OutlineError Plot :=
  let surface := surface?.getD Surface.plot
  let placed := g.binaryLayout?.getD []
  match g.arrowError? placed surface with
  | some e => .error e
  | none => .ok {
      surface := surface
      title := title?.getD Plot.defaultTitle
      spots := g.nodes.filterMap fun node => spotOf? placed node.id
      colours := g.nodes.map (·.kind.plotColour)
      labels := g.nodes.filterMap fun node =>
        (spotOf? placed node.id).map fun spot => ⟨node.label, spot, 10⟩
      arrows := g.edges.length }

end FormulaGraph

end Sentential
