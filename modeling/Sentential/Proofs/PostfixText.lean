import Sentential.FormulaGraph.Builder
import Sentential.Proofs.Symbol
import Sentential.Proofs.TruthTable
/-!
# Reading a postfix text

The text of a program is cut at its blanks into the texts of the instructions, provided that no atom
has a blank or is empty, and a text that is not a glyph belongs to one push.  So the text determines
the program.  What else a compilation records is determined by the program: the order of the atoms
is the order in which the program pushes them first, whatever the formula's own order of symbols.
-/

namespace Sentential

/-! ## Texts between blanks -/

/-- The text can be told apart from others when blanks are put between them. -/
def IsSeparate (text : String) : Prop := text ≠ "" ∧ ' ' ∉ text.toList

instance (text : String) : Decidable (IsSeparate text) :=
  inferInstanceAs (Decidable (text ≠ "" ∧ ' ' ∉ text.toList))

/-- The parts of a text between blanks that are not empty. -/
def parts (text : String) : List (List Char) :=
  (text.toList.splitOn ' ').filter fun part => !part.isEmpty

theorem parts_joinTokens {ts : List String} (h : ∀ t ∈ ts, IsSeparate t) :
    parts (joinTokens ts) = ts.map String.toList := by
  have hparts : ∀ part ∈ ts.map String.toList, (!part.isEmpty) = true :=
    List.forall_mem_map.2 fun t ht => by simpa using (h t ht).1
  have hblank : ∀ part ∈ ts.map String.toList, ' ' ∉ part :=
    List.forall_mem_map.2 fun t ht => (h t ht).2
  rcases eq_or_ne ts [] with rfl | hne
  · rfl
  · have hsplit := List.splitOn_intercalate ' ' hblank (by simpa using hne)
    rw [parts, joinTokens, String.toList_intercalate]
    exact (congrArg _ hsplit).trans (List.filter_eq_self.2 hparts)

/-- Separate texts can be read back from their joined text. -/
theorem joinTokens_inj {ts us : List String} (hts : ∀ t ∈ ts, IsSeparate t)
    (hus : ∀ t ∈ us, IsSeparate t) (h : joinTokens ts = joinTokens us) : ts = us := by
  have hparts := congrArg parts h
  rw [parts_joinTokens hts, parts_joinTokens hus] at hparts
  exact (List.map_inj_right fun _ _ => String.toList_inj.1).1 hparts

/-! ## Programs -/

/-- Every atom is a separate text, and none is a glyph. -/
structure Alphabet.IsLegible (a : Alphabet) : Prop where
  separate : ∀ name ∈ a.atoms, IsSeparate name
  text_notMem (c : Connective) : c.text ∉ a.atoms

instance (a : Alphabet) : Decidable a.IsLegible :=
  decidable_of_iff ((∀ name ∈ a.atoms, IsSeparate name) ∧ ∀ c ∈ Connective.all, c.text ∉ a.atoms)
    ⟨fun h => ⟨h.1, fun c => h.2 c c.mem_all⟩, fun h => ⟨h.separate, fun c _ => h.text_notMem c⟩⟩

variable {a : Alphabet} {p q : Program}

theorem Instruction.text_inj (ha : a.IsLegible) {i j : Instruction}
    (hi : ∀ name, i.pushed? = some name → name ∈ a.atoms)
    (hj : ∀ name, j.pushed? = some name → name ∈ a.atoms) (h : i.text = j.text) : i = j := by
  cases i with
  | push name =>
      cases j with
      | push name' => exact congrArg _ h
      | apply d =>
          have hname : name = d.text := h
          exact absurd (hname ▸ hi name rfl) (ha.text_notMem d)
  | apply c =>
      cases j with
      | push name =>
          have hname : c.text = name := h
          exact absurd (hname ▸ hj name rfl) (ha.text_notMem c)
      | apply d => exact congrArg _ (Connective.text_injective h)

theorem Instruction.isSeparate_text (ha : a.IsLegible) {i : Instruction}
    (hi : ∀ name, i.pushed? = some name → name ∈ a.atoms) : IsSeparate i.text := by
  cases i with
  | push name => exact ha.separate name (hi name rfl)
  | apply c => rcases c with _ | (_ | _ | _ | _) <;> decide

/-- Programs that push atoms only are determined by their texts. -/
theorem Program.postfixText_inj (ha : a.IsLegible) (hp : ∀ name ∈ p.pushed, name ∈ a.atoms)
    (hq : ∀ name ∈ q.pushed, name ∈ a.atoms) (h : p.postfixText = q.postfixText) : p = q := by
  rw [pushed, List.forall_mem_filterMap] at hp hq
  have htexts : p.map Instruction.text = q.map Instruction.text :=
    joinTokens_inj (List.forall_mem_map.2 fun i hi => Instruction.isSeparate_text ha (hp i hi))
      (List.forall_mem_map.2 fun i hi => Instruction.isSeparate_text ha (hq i hi)) h
  clear h
  induction p generalizing q with
  | nil => exact (List.map_eq_nil_iff.1 htexts.symm).symm
  | cons i p ih =>
      obtain ⟨j, q, rfl, hij, hrest⟩ := List.map_eq_cons_iff.1 htexts.symm
      obtain ⟨hi, hp⟩ := List.forall_mem_cons.1 hp
      obtain ⟨hj, hq⟩ := List.forall_mem_cons.1 hq
      rw [Instruction.text_inj ha hi hj hij.symm, ih hp hq hrest.symm]

/-! ## Compiled formulas -/

namespace Alphabet

/-- Two formulas with the same postfix text compile to the same program, with the same atoms in the
same order.  Their truth tables and graphs are the same, and a program that has no graph has none
for the same reason. -/
theorem compile_eq_of_postfixText_eq {a : Alphabet} (ha : a.IsLegible) {ss ts : List String}
    {p q : Program} (hs : (a.compile (.tokens ss)).outcome = .ok p)
    (ht : (a.compile (.tokens ts)).outcome = .ok q) (h : p.postfixText = q.postfixText) :
    p = q ∧ (a.compile (.tokens ss)).atoms = (a.compile (.tokens ts)).atoms ∧
      (a.truthTable (.tokens ss)).atoms = (a.truthTable (.tokens ts)).atoms ∧
      (a.truthTable (.tokens ss)).rows = (a.truthTable (.tokens ts)).rows ∧
      (a.truthTable (.tokens ss)).results = (a.truthTable (.tokens ts)).results ∧
      (a.truthTable (.tokens ss)).isTautology = (a.truthTable (.tokens ts)).isTautology ∧
      (a.truthTable (.tokens ss)).isSatisfiable = (a.truthTable (.tokens ts)).isSatisfiable ∧
      (a.truthTable (.tokens ss)).isContradiction = (a.truthTable (.tokens ts)).isContradiction ∧
      p.graph = q.graph := by
  have hpq : p = q :=
    Program.postfixText_inj ha (mem_atoms_of_mem_pushed hs) (mem_atoms_of_mem_pushed ht) h
  subst hpq
  have hatoms : (a.compile (.tokens ss)).atoms = (a.compile (.tokens ts)).atoms :=
    (atoms_of_outcome hs).trans (atoms_of_outcome ht).symm
  have hrows : (a.truthTable (.tokens ss)).rows = (a.truthTable (.tokens ts)).rows := by
    rw [rows_truthTable hs, rows_truthTable ht, hatoms]
  obtain ⟨hresults, htaut, hsat, hcontra⟩ := TruthTable.flags_of_rows_eq hrows
  refine ⟨rfl, hatoms, ?_, hrows, hresults, htaut, hsat, hcontra, rfl⟩
  rw [atoms_truthTable hs, atoms_truthTable ht, hatoms]

/-- The connective stands between its operands or behind them. -/
theorem compile_eq_of_postfixText_eq_behind :
    (builder.compile (.tokens ["P", "∧", "(", "Q", ")"])).outcome =
        .ok [.push "P", .push "Q", .apply (.binary .and)] ∧
      (builder.compile (.tokens ["P", "Q", "∧"])).outcome =
        .ok [.push "P", .push "Q", .apply (.binary .and)] ∧
      (builder.truthTable (.tokens ["P", "∧", "(", "Q", ")"])).rows =
        (builder.truthTable (.tokens ["P", "Q", "∧"])).rows := by
  have hs : (builder.compile (.tokens ["P", "∧", "(", "Q", ")"])).outcome =
      .ok [.push "P", .push "Q", .apply (.binary .and)] := rfl
  have ht : (builder.compile (.tokens ["P", "Q", "∧"])).outcome =
      .ok [.push "P", .push "Q", .apply (.binary .and)] := rfl
  obtain ⟨-, -, -, hrows, -⟩ := compile_eq_of_postfixText_eq (by decide) hs ht rfl
  exact ⟨hs, ht, hrows⟩

end Alphabet

end Sentential
