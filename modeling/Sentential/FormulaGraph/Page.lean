import Sentential.FileTree
import Sentential.FormulaGraph.Basic
/-!
# Saving the graph of a formula as a page

The interactive page holds a record for every node and every edge.  It is made and saved by a
library, to which the nodes and the edges are handed over one by one.  A file name without a folder
is put into the folder `graphs`, which is made if it is missing.

What the library does is a parameter.  The program relies on this: a path must end in `.html`, which
is read off its parts between points; the folders of the page's scripts are made before the file is
opened, and the page keeps what it was handed, with its number as the label of a node without one.
-/

namespace Sentential

namespace FormulaGraph

/-! ## What is handed over -/

/-- A node as it is handed to the library. -/
structure NodeCall where
  id : Nat
  label : String
  colour : String
  tooltip : String
  size : Nat
  fontSize : Nat
  deriving DecidableEq

/-- An edge, as it is handed to the library and as the page keeps it. -/
structure PageEdge where
  source : Nat
  target : Nat
  label : String
  tooltip : String
  arrows : String
  deriving DecidableEq

/-- All that is handed to the library before a page is saved. -/
structure Network where
  height : String
  width : String
  nodes : List NodeCall
  edges : List PageEdge

namespace NodeKind

def pageColour : NodeKind → String
  | .atom => "#87CEEB"
  | .operator => "#FF8C00"

end NodeKind

/-- The call for a node; the main connective is larger and says so. -/
def Node.call (n : Node) : NodeCall where
  id := n.id
  label := n.label
  colour := n.kind.pageColour
  tooltip := n.label ++ "\nKind: " ++ n.kind.name ++ if n.isRoot then "\nMain connective" else ""
  size := if n.isRoot then 25 else 20
  fontSize := 14

def Edge.call (e : Edge) : PageEdge where
  source := e.source
  target := e.target
  label := e.side.name
  tooltip := e.side.name
  arrows := "to"

/-- What a graph hands over. -/
def network (g : FormulaGraph) (height width : String) : Network where
  height := height
  width := width
  nodes := g.nodes.map Node.call
  edges := g.edges.map Edge.call

/-! ## What a page holds -/

/-- What a node is labelled with: a text, or a number. -/
inductive PageLabel where
  | text (s : String)
  | number (n : Nat)
  deriving DecidableEq

structure PageNode where
  id : Nat
  label : PageLabel
  colour : String
  tooltip : String
  size : Nat
  fontSize : Nat
  deriving DecidableEq

/-- The records and the size of a page. -/
structure Page where
  height : String
  width : String
  nodes : List PageNode
  edges : List PageEdge

/-! ## The library -/

/-- Why a page is not saved: an assertion of the library about the path fails, or the system does
not open the file. -/
inductive SaveError where
  | refused (message : String)
  | unopened (e : OpenError) (path : String)
  deriving DecidableEq

namespace SaveError

def message : SaveError → String
  | .refused message => message
  | .unopened e path => e.message path

end SaveError

/-- What saves pages at paths.  It makes the folders of the page's scripts in the working folder. -/
structure PageLibrary where
  scriptFolders : List (List String)
  save : Network → FileTree → (path : String) → Except SaveError Page

/-- The record of a node.  A node without a label is labelled with its number. -/
def NodeCall.record (n : NodeCall) : PageNode where
  id := n.id
  label := if n.label.isEmpty then .number n.id else .text n.label
  colour := n.colour
  tooltip := n.tooltip
  size := n.size
  fontSize := n.fontSize

namespace Network

/-- No node is handed over twice, and the edges run between nodes. -/
structure IsSimple (n : Network) : Prop where
  nodup : (n.nodes.map NodeCall.id).Nodup
  edges : ∀ e ∈ n.edges, e.source ∈ n.nodes.map NodeCall.id ∧ e.target ∈ n.nodes.map NodeCall.id

/-- The page that keeps what was handed over. -/
def page (n : Network) : Page where
  height := n.height
  width := n.width
  nodes := n.nodes.map NodeCall.record
  edges := n.edges

end Network

/-- The path is cut at its points into two parts at least, the last of which is `html`. -/
structure HasHtmlParts (path : String) : Prop where
  two : 2 ≤ (path.toList.splitOn '.').length
  last : (path.toList.splitOn '.').getLast? = some "html".toList

/-- What the program relies on in the library. -/
structure PageLibrary.SavesHtml (lib : PageLibrary) : Prop where
  noExtension : ∀ (n : Network) (t : FileTree) (path : String), n.IsSimple →
    (path.toList.splitOn '.').length < 2 →
    lib.save n t path = .error (.refused ("invalid file type for " ++ path))
  otherExtension : ∀ (n : Network) (t : FileTree) (path : String), n.IsSimple →
    2 ≤ (path.toList.splitOn '.').length →
    (path.toList.splitOn '.').getLast? ≠ some "html".toList →
    lib.save n t path = .error (.refused (path ++ " is not a valid html file"))
  unopened : ∀ (n : Network) (t : FileTree) (path : String) (e : OpenError), n.IsSimple →
    HasHtmlParts path → '\x00' ∉ path.toList →
    (t.make lib.scriptFolders).openError? path = some e →
    lib.save n t path = .error (.unopened e path)
  saved : ∀ (n : Network) (t : FileTree) (path : String), n.IsSimple → HasHtmlParts path →
    '\x00' ∉ path.toList → (t.make lib.scriptFolders).openError? path = none →
    lib.save n t path = .ok n.page

/-! ## Saving -/

namespace Page

/-- The folder of pages whose file is given without one. -/
def defaultFolder : String := "graphs"

/-- Whether a file is given without a folder. -/
def isBare (file : String) : Bool := (FileTree.folderPart file).isEmpty

/-- The path of the page. -/
def pathOf (file : String) : String :=
  if isBare file then defaultFolder ++ "/" ++ file else file

/-- The folders that are made before the page is handed to the library. -/
def madeFolders (file : String) : List (List String) :=
  if isBare file then [[defaultFolder]] else []

end Page

/-- A page and the path at which it was saved. -/
structure SavedPage where
  path : String
  page : Page

/-- What is told about a saved page. -/
def SavedPage.notice (s : SavedPage) : String :=
  "Interactive formula graph saved to " ++ s.path ++ "\n"

/-- Saves a graph as a page. -/
def savePage (g : FormulaGraph) (lib : PageLibrary) (t : FileTree) (file height width : String) :
    Except SaveError SavedPage := do
  let page ← lib.save (g.network height width) (t.make (Page.madeFolders file)) (Page.pathOf file)
  return ⟨Page.pathOf file, page⟩

end FormulaGraph

/-- Saves the graph of a formula as a page in a workspace. -/
def Formula.savePage (f : Formula) (lib : FormulaGraph.PageLibrary) (w : Workspace)
    (file height width : String) : Except FormulaGraph.SaveError FormulaGraph.SavedPage :=
  f.graph.savePage lib w.tree file height width

end Sentential
