import Sentential.Proofs.TruthTable
import Sentential.Region.Classification
/-!
# Regions as rows of a truth table

The table orders its columns as the atoms occur, and has none for an atom that does not occur; a
region fixes both atoms in the order of the alphabet.  Either way the value is that of one program,
and it depends on the atoms that occur only.  So a region has one row of the table, and is shaded if
the formula is true in that row.
-/

namespace Sentential

/-- Whether the region lies in the left circle. -/
def Region.inLeft : Region → Bool
  | .leftOnly => true
  | .rightOnly => false
  | .both => true

/-- Whether the region lies in the right circle. -/
def Region.inRight : Region → Bool
  | .leftOnly => false
  | .rightOnly => true
  | .both => true

/-- The values of the two atoms in a region. -/
def Region.assignment (first second : String) (r : Region) : Assignment :=
  Assignment.set second r.inRight [(first, r.inLeft)]

/-- A classification agrees with a table: both carry the same message and the diagram is then empty,
or both carry none and every region has the value of the one row in which the atoms that occur have
the values that they have in the region. -/
structure Classification.AgreesWith (c : Classification) (first second : String)
    (t : TruthTable) : Prop where
  message : c.error?.map CompileError.message = t.error?
  cleared : t.error? ≠ none → c.shading = .cleared
  existsUnique_row : t.error? = none → ∀ (r : Region) (v : Valuation), v first = r.inLeft →
    v second = r.inRight →
      ∃! m : Nat, ∃ row : List Bool, t.rows[m]? = some row ∧ row.dropLast = t.atoms.map v
  result : t.error? = none → ∀ (r : Region) (v : Valuation), v first = r.inLeft →
    v second = r.inRight → ∀ row ∈ t.rows, row.dropLast = t.atoms.map v →
      row.getLast? = some (c.shading.get r)

theorem Program.get_shading (p : Program) (first second : String) (r : Region) :
    (p.shading first second).get r = p.evaluate (r.assignment first second).valuation := by
  cases r <;> rfl

theorem Region.valuation_assignment {first second name : String} (hne : first ≠ second)
    {r : Region} {v : Valuation} (hfirst : v first = r.inLeft) (hsecond : v second = r.inRight)
    (hname : name = first ∨ name = second) :
    (r.assignment first second).valuation name = v name := by
  rw [Assignment.valuation, assignment, Assignment.lookup_set, Assignment.lookup_entry]
  rcases hname with rfl | rfl
  · rw [if_neg hne, if_pos rfl, hfirst, Option.getD_some]
  · rw [if_pos rfl, hsecond, Option.getD_some]

namespace Alphabet

variable {a : Alphabet} {source : Source} {first second : String} {p : Program} {e : CompileError}

theorem mem_atoms_of_mem_compile (h : (a.compile source).outcome = .ok p) {name : String}
    (hname : name ∈ (a.compile source).atoms) : name ∈ a.atoms :=
  mem_atoms_of_mem_pushed h name ((mem_atoms_iff_mem_pushed h).1 hname)

theorem classify_of_outcome (hatoms : a.atoms = [first, second])
    (h : (a.compile source).outcome = .ok p) :
    a.classify source = .ok { shading := p.shading first second } := by
  rw [classify, hatoms]
  simp only [h]

theorem classify_of_outcome_error (hatoms : a.atoms = [first, second])
    (h : (a.compile source).outcome = .error e) :
    a.classify source = .ok { shading := .cleared, error? := some e } := by
  rw [classify, hatoms]
  simp only [h]

theorem agreesWith_of_outcome (hatoms : a.atoms = [first, second]) (hne : first ≠ second)
    (h : (a.compile source).outcome = .ok p) :
    Classification.AgreesWith { shading := p.shading first second } first second
      (a.truthTable source) := by
  have htable := tabulates_truthTable h
  have herror : (a.truthTable source).error? = none := by
    rw [truthTable_of_outcome h]
  have hmap : ∀ (r : Region) (v : Valuation), v first = r.inLeft → v second = r.inRight →
      (a.truthTable source).atoms.map v =
        (a.compile source).atoms.map
          (Mapping.ofAssignment (r.assignment first second)).valuation := by
    intro r v hfirst hsecond
    rw [atoms_truthTable h, Mapping.valuation_ofAssignment]
    apply List.map_congr_left
    intro name hname
    have hmem := mem_atoms_of_mem_compile h hname
    rw [hatoms] at hmem
    exact (Region.valuation_assignment hne hfirst hsecond (by simpa using hmem)).symm
  constructor
  case message => rw [herror]; rfl
  case cleared => exact fun hsome => absurd herror hsome
  case existsUnique_row =>
    intro _ r v hfirst hsecond
    rw [hmap r v hfirst hsecond]
    exact htable.existsUnique_row _
  case result =>
    intro _ r v hfirst hsecond row hrow hcells
    rw [hmap r v hfirst hsecond] at hcells
    rw [htable.result _ row hrow hcells, Mapping.valuation_ofAssignment, Program.get_shading]

theorem agreesWith_of_outcome_error (h : (a.compile source).outcome = .error e) :
    Classification.AgreesWith { shading := .cleared, error? := some e } first second
      (a.truthTable source) := by
  have herror : (a.truthTable source).error? = some e.message := by
    rw [truthTable_of_outcome_error h]
  constructor
  case message => rw [herror]; rfl
  case cleared => exact fun _ => rfl
  case existsUnique_row =>
    intro hnone
    rw [herror] at hnone
    cases hnone
  case result =>
    intro hnone
    rw [herror] at hnone
    cases hnone

theorem exists_classify_agreesWith (hatoms : a.atoms = [first, second]) (hne : first ≠ second)
    (source : Source) :
    ∃ c, a.classify source = .ok c ∧ c.AgreesWith first second (a.truthTable source) := by
  cases houtcome : (a.compile source).outcome with
  | ok p =>
      exact ⟨_, classify_of_outcome hatoms houtcome, agreesWith_of_outcome hatoms hne houtcome⟩
  | error e =>
      exact ⟨_, classify_of_outcome_error hatoms houtcome, agreesWith_of_outcome_error houtcome⟩

theorem classifyRegions_of_tokenize (hatoms : a.atoms = [first, second]) {ts : List String}
    (h : a.tokenize source = .ok ts) :
    a.classifyRegions source = (a.classify source).mapError .notTwo := by
  rw [classifyRegions, hatoms]
  simp only [h, eq_tokens_of_tokenize h]
  rfl

theorem classifyRegions_of_refuses (hatoms : a.atoms = [first, second]) {e : Text.TemplateError}
    (h : a.Refuses source e) : a.classifyRegions source = .error (.template e) := by
  rw [classifyRegions, hatoms]
  simp only [tokenize_of_refuses h]
  rfl

theorem classifyRegions_of_length_ne (h : a.atoms.length ≠ 2) (source : Source) :
    a.classifyRegions source = .error (.notTwo ⟨a.atoms⟩) := by
  rw [classifyRegions]
  split
  case h_1 first second hatoms => exact absurd (congrArg List.length hatoms) h
  case h_2 => rfl

/-- With two distinct atoms the regions that a formula shades are read off its truth table, unless
both are refused alike, and with any other number of atoms there is no diagram. -/
theorem classifyRegions_agrees (a : Alphabet) (source : Source) :
    (∀ first second, a.atoms = [first, second] → first ≠ second →
      (∀ e, a.Refuses source e →
        a.classifyRegions source = .error (.template e) ∧ a.tabulate source = .error e) ∧
      ((∀ e, ¬ a.Refuses source e) →
        ∃ c t, a.classifyRegions source = .ok c ∧ a.tabulate source = .ok t ∧
          c.AgreesWith first second t)) ∧
    (a.atoms.length ≠ 2 → a.classifyRegions source = .error (.notTwo ⟨a.atoms⟩)) := by
  refine ⟨fun first second hatoms hne => ⟨?_, ?_⟩, fun h => classifyRegions_of_length_ne h source⟩
  · exact fun e h => ⟨classifyRegions_of_refuses hatoms h, tabulate_eq_error_iff.2 h⟩
  · intro hnot
    rcases a.tokenize_cases source with ⟨e, hrefuses, _⟩ | ⟨_, htokens⟩
    · exact absurd hrefuses (hnot e)
    · obtain ⟨c, hc, hagrees⟩ := exists_classify_agreesWith hatoms hne source
      refine ⟨c, _, ?_, tabulate_of_tokenize htokens, hagrees⟩
      rw [classifyRegions_of_tokenize hatoms htokens, hc]
      rfl

/-- The table of a conditional whose right atom comes first in the alphabet has its columns the
other way round, and agrees with the diagram.  Four atoms make no diagram. -/
theorem classifyRegions_agrees_reversed :
    diagram.atoms = ["P", "Q"] ∧ (∀ e, ¬ diagram.Refuses (.text "Q implies P") e) ∧
      (∃ c t, diagram.classifyRegions (.text "Q implies P") = .ok c ∧
        diagram.tabulate (.text "Q implies P") = .ok t ∧ c.AgreesWith "P" "Q" t) ∧
      (diagram.truthTable (.text "Q implies P")).atoms = ["Q", "P"] ∧
      builder.atoms.length ≠ 2 ∧
      builder.classifyRegions (.text "Q implies P") = .error (.notTwo ⟨builder.atoms⟩) := by
  have hread : ∀ e, ¬ diagram.Refuses (.text "Q implies P") e := fun e h => by
    cases h.templateError
  exact ⟨rfl, hread, ((classifyRegions_agrees diagram _).1 "P" "Q" rfl (by decide)).2 hread,
    by decide +kernel, by decide, (classifyRegions_agrees builder _).2 (by decide)⟩

/-- With a single backslash for one of the two atoms there is no classification to agree with. -/
theorem not_classifyRegions_agrees :
    classifyRegions { atoms := ["P", "\\"], wordSpellings := true } (.text "x") =
        .error (.template ⟨['\\'], .looseBackslash, 0⟩) ∧
      ¬ ∀ (a : Alphabet) (first second : String), a.atoms = [first, second] → first ≠ second →
        ∀ source, ∃ c, a.classifyRegions source = .ok c := by
  refine ⟨rfl, fun h => ?_⟩
  obtain ⟨c, hc⟩ := h { atoms := ["P", "\\"], wordSpellings := true } "P" "\\" rfl (by decide)
    (.text "x")
  cases hc

end Alphabet

end Sentential
