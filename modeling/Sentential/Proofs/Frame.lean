import Sentential.Proofs.TruthTable
/-!
# Frames of truth tables

The rows of a truth table are as long as its header.  A library that keeps full rows as they are
therefore makes a frame of the table of every formula that compiles, and writes it.
-/

namespace Sentential

namespace Alphabet

variable {a : Alphabet} {source : Source} {p : Program} {lib : FrameLibrary}

theorem length_of_mem_rows (h : (a.compile source).outcome = .ok p) {row : List Bool}
    (hrow : row ∈ (a.truthTable source).rows) :
    row.length = (a.truthTable source).header.length := by
  rw [rows_truthTable h] at hrow
  obtain ⟨m, -, rfl⟩ := List.mem_map.1 hrow
  rw [truthTable_of_outcome h, List.length_append, List.length_append, Assignment.length_cells,
    List.length_singleton, List.length_singleton]

theorem length_of_mem_letters (h : (a.compile source).outcome = .ok p) {row : List String}
    (hrow : row ∈ (a.truthTable source).letters) :
    row.length = (a.truthTable source).header.length := by
  obtain ⟨cells, hcells, rfl⟩ := List.mem_map.1 hrow
  rw [List.length_map, length_of_mem_rows h hcells]

theorem frame_truthTable (hlib : lib.BuildsRowWise) (h : (a.compile source).outcome = .ok p) :
    (a.truthTable source).frame lib =
      .ok (.full (a.truthTable source).header (a.truthTable source).rows) := by
  rw [TruthTable.frame, hlib _ _ fun row hrow => length_of_mem_rows h hrow]
  rfl

theorem letterFrame_truthTable (hlib : lib.BuildsRowWise)
    (h : (a.compile source).outcome = .ok p) :
    (a.truthTable source).letterFrame lib =
      .ok (.full (a.truthTable source).header (a.truthTable source).letters) := by
  rw [TruthTable.letterFrame, hlib _ _ fun row hrow => length_of_mem_letters h hrow]
  rfl

theorem text_truthTable (hlib : lib.BuildsRowWise) (h : (a.compile source).outcome = .ok p) :
    (a.truthTable source).text lib =
      .ok (lib.text (.full (a.truthTable source).header (a.truthTable source).letters)) := by
  have hnone : (a.truthTable source).error? = none := by rw [truthTable_of_outcome h]
  rw [TruthTable.text, hnone, letterFrame_truthTable hlib h]
  rfl

end Alphabet

end Sentential
