import Sentential.Library.Pages
/-!
# What the library of pages does

It refuses a path by its parts, opens the file among the folders it has made, and keeps what was
handed over.
-/

namespace Sentential.FormulaGraph.PageLibrary

theorem standard_savesHtml : standard.SavesHtml := by
  constructor
  case noExtension =>
    intro n t path _ hparts
    simp only [standard, if_pos hparts]
  case otherExtension =>
    intro n t path _ hparts hlast
    simp only [standard, if_neg (Nat.not_lt.2 hparts), if_pos hlast]
  case unopened =>
    intro n t path e _ hparts _ hopen
    change (t.make standardFolders).openError? path = some e at hopen
    simp only [standard, if_neg (Nat.not_lt.2 hparts.two), if_neg (not_not_intro hparts.last),
      hopen]
  case saved =>
    intro n t path _ hparts _ hopen
    change (t.make standardFolders).openError? path = none at hopen
    simp only [standard, if_neg (Nat.not_lt.2 hparts.two), if_neg (not_not_intro hparts.last),
      hopen]

end Sentential.FormulaGraph.PageLibrary
