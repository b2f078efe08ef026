import Sentential.FormulaGraph.Page
/-!
# A library of pages

The pages with which graphs are saved.  A path is checked before anything is made, and the page
keeps what was handed over.
-/

namespace Sentential.FormulaGraph.PageLibrary

/-- The folders that hold the page's scripts. -/
def standardFolders : List (List String) :=
  [["lib"], ["lib", "bindings"], ["lib", "tom-select"], ["lib", "vis-9.1.2"]]

def standard : PageLibrary where
  scriptFolders := standardFolders
  save := fun n t path =>
    let parts := path.toList.splitOn '.'
    if parts.length < 2 then .error (.refused ("invalid file type for " ++ path))
    else if parts.getLast? ≠ some "html".toList then
      .error (.refused (path ++ " is not a valid html file"))
    else match (t.make standardFolders).openError? path with
      | some e => .error (.unopened e path)
      | none => .ok n.page

end Sentential.FormulaGraph.PageLibrary
