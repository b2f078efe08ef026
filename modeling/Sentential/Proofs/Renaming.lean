import Sentential.Proofs.Compiler.Outcome
import Sentential.Proofs.TruthTable
import Mathlib.Algebra.Group.End
import Mathlib.Data.List.Nodup
/-!
# Renaming atoms

The compiler asks of two atoms only whether they are the same, and the machine only what values
they have.  So a permutation of the atoms goes through both unchanged.  The columns of a truth table
are in the order in which the atoms occur, not in that of their names, and its rows stay as they
were.
-/

namespace Sentential

def Instruction.renamed (ρ : String → String) : Instruction → Instruction
  | .push name => .push (ρ name)
  | .apply c => .apply c

def Program.renamed (ρ : String → String) (p : Program) : Program := p.map (Instruction.renamed ρ)

/-- What a token stands for after a renaming: only atoms have a name. -/
def Symbol.renamed (ρ : String → String) : Symbol → Symbol
  | .atom name => .atom (ρ name)
  | s => s

/-- A failure is kept as it is, since no atom is an unknown token. -/
def Compilation.renamed (ρ : String → String) (c : Compilation) : Compilation where
  atoms := c.atoms.map ρ
  outcome := c.outcome.map (Program.renamed ρ)

def Compiler.renamed (ρ : String → String) (σ : Compiler) : Compiler where
  waiting := σ.waiting
  emitted := σ.emitted.renamed ρ
  seen := σ.seen.map ρ

variable {ρ : String → String}

/-! ## Renamed programs -/

namespace Program

@[simp] theorem renamed_push_singleton (ρ : String → String) (name : String) :
    renamed ρ [.push name] = [.push (ρ name)] := rfl

@[simp] theorem renamed_append (ρ : String → String) (p q : Program) :
    renamed ρ (p ++ q) = p.renamed ρ ++ q.renamed ρ :=
  List.map_append

@[simp] theorem renamed_released (ρ : String → String) (cs : List Connective) :
    (Compiler.released cs).renamed ρ = Compiler.released cs := by
  simp [renamed, Compiler.released, Instruction.renamed]

theorem run_renamed (ρ : String → String) (p : Program) (v : Valuation) (stack : List Bool) :
    Machine.run v stack (p.renamed ρ) = Machine.run (v ∘ ρ) stack p := by
  induction p generalizing stack with
  | nil => rfl
  | cons i p ih =>
      have hstep : Machine.step v stack (i.renamed ρ) = Machine.step (v ∘ ρ) stack i := by
        rcases i with name | _ | _ <;> rfl
      show Machine.run v (Machine.step v stack (i.renamed ρ)) (renamed ρ p) = _
      rw [hstep, ih, Machine.run_cons]

/-- A renamed program reads under each new name what the program reads under the old one. -/
theorem evaluate_renamed (ρ : String → String) (p : Program) (v : Valuation) :
    (p.renamed ρ).evaluate v = p.evaluate (v ∘ ρ) := by
  rw [evaluate, run_renamed, evaluate]

end Program

/-! ## Two runs of the compiler -/

namespace Compiler

variable {σ σ' : Compiler} {s : Symbol} {e : CompileError}

theorem note_map (hρ : Function.Injective ρ) (seen : List String) (name : String) :
    note (seen.map ρ) (ρ name) = (note seen name).map ρ := by
  have hmem : ρ name ∈ seen.map ρ ↔ name ∈ seen := List.mem_map_of_injective hρ
  rw [note, note]
  by_cases hname : name ∈ seen
  · rw [if_pos (List.contains_iff_mem.2 (hmem.2 hname)), if_pos (List.contains_iff_mem.2 hname)]
  · rw [if_neg (mt List.contains_iff_mem.1 (mt hmem.1 hname)),
      if_neg (mt List.contains_iff_mem.1 hname), List.map_append, List.map_singleton]

theorem Transition.renamed (hρ : Function.Injective ρ) (h : Transition σ s σ') :
    Transition (σ.renamed ρ) (s.renamed ρ) (σ'.renamed ρ) := by
  cases h with
  | atom waiting emitted seen name =>
      have hatom := Transition.atom waiting (emitted.renamed ρ) (seen.map ρ) (ρ name)
      rw [note_map hρ] at hatom
      simpa [Compiler.renamed, Symbol.renamed] using hatom
  | connective c cs kept emitted seen hrelease =>
      have hconnective := Transition.connective c cs kept (emitted.renamed ρ) (seen.map ρ) hrelease
      simpa [Compiler.renamed, Symbol.renamed] using hconnective
  | opening waiting emitted seen => exact .opening _ _ _
  | closing cs rest emitted seen =>
      have hclosing := Transition.closing cs rest (emitted.renamed ρ) (seen.map ρ)
      simpa [Compiler.renamed, Symbol.renamed] using hclosing

theorem step_renamed_of_error (ρ : String → String) (h : σ.step s = .error e) :
    (σ.renamed ρ).step (s.renamed ρ) = .error e := by
  rw [step_eq_error_iff] at h ⊢
  rcases h with ⟨token, rfl, rfl⟩ | ⟨rfl, hopen, rfl⟩
  · exact .inl ⟨token, rfl, rfl⟩
  · exact .inr ⟨rfl, hopen, rfl⟩

theorem run_renamed (hρ : Function.Injective ρ) (σ : Compiler) (ss : List Symbol) :
    run (σ.renamed ρ) (ss.map (Symbol.renamed ρ)) = ((run σ ss).1.renamed ρ, (run σ ss).2) := by
  induction ss generalizing σ with
  | nil => rfl
  | cons s ss ih =>
      cases hstep : σ.step s with
      | ok σ' =>
          have htrans := Transition.of_step hstep
          rw [List.map_cons, run_cons_of_transition (htrans.renamed hρ), ih,
            run_cons_of_transition htrans]
      | error e =>
          rw [List.map_cons, run_cons_of_error (step_renamed_of_error ρ hstep),
            run_cons_of_error hstep]

theorem finish_renamed (ρ : String → String) (σ : Compiler) :
    (σ.renamed ρ).finish = σ.finish.map (Program.renamed ρ) := by
  obtain ⟨waiting, emitted, seen⟩ := σ
  rcases pending_or_opening waiting with ⟨cs, rfl⟩ | ⟨cs, rest, rfl⟩
  · simp [finish, renamed, Except.map]
  · simp [finish, renamed, Except.map]

end Compiler

namespace Alphabet

open Assignment Compiler

variable {a : Alphabet} {ts : List String}

/-- A permutation of the atoms of an alphabet renames tokens; a token that is no atom is kept. -/
def relabelling (a : Alphabet) (r : Equiv.Perm {name : String // name ∈ a.atoms}) :
    Equiv.Perm String :=
  Equiv.Perm.ofSubtype r

theorem symbol_relabelling (a : Alphabet) (r : Equiv.Perm {name : String // name ∈ a.atoms})
    (token : String) :
    a.symbol (a.relabelling r token) = (a.symbol token).renamed (a.relabelling r) := by
  by_cases h : token ∈ a.atoms
  · have hmem : a.relabelling r token ∈ a.atoms :=
      (Equiv.Perm.ofSubtype_apply_mem_iff_mem r token).2 h
    rw [symbol_of_mem h, symbol_of_mem hmem]
    rfl
  · have hkept : a.relabelling r token = token := Equiv.Perm.ofSubtype_apply_of_not_mem r h
    rw [hkept]
    rcases a.symbol_cases token with ⟨hmem, _⟩ | ⟨_, _, _, hs⟩ | ⟨_, _, hs⟩ | ⟨_, _, hs⟩ |
      ⟨_, _, _, _, hs⟩
    · exact absurd hmem h
    all_goals
      rw [hs]
      rfl

theorem compile_map (hρ : Function.Injective ρ)
    (h : ∀ token, a.symbol (ρ token) = (a.symbol token).renamed ρ) (ts : List String) :
    a.compile (.tokens (ts.map ρ)) = (a.compile (.tokens ts)).renamed ρ := by
  have hsymbols : (ts.map ρ).map a.symbol = (ts.map a.symbol).map (Symbol.renamed ρ) := by
    simp [h]
  have hrun : run {} ((ts.map ρ).map a.symbol) =
      ((run {} (ts.map a.symbol)).1.renamed ρ, (run {} (ts.map a.symbol)).2) := by
    rw [hsymbols]
    exact run_renamed hρ {} _
  unfold compile tokens
  rcases hold : run {} (ts.map a.symbol) with ⟨σ, _ | e⟩
  · rw [hold] at hrun
    rw [compileTokens_of_run hrun, compileTokens_of_run hold, finish_renamed]
    rfl
  · rw [hold] at hrun
    rw [compileTokens_of_run_error hrun, compileTokens_of_run_error hold]
    rfl

/-- The bits of a mask go to the names by their places only. -/
theorem rowValue_renamed (ρ : Equiv.Perm String) {names : List String} (hnames : names.Nodup)
    {p : Program} (hpushed : ∀ name ∈ p.pushed, name ∈ names) (m : Nat) :
    (p.renamed ρ).rowValue (names.map ρ) m = p.rowValue names m := by
  have hnames' : (names.map ρ).Nodup := List.Nodup.map ρ.injective hnames
  rw [Program.rowValue, Program.evaluate_renamed, Program.rowValue]
  -- the new name gets from the mask what the old name in its place gets
  apply Program.evaluate_congr
  intro name hname
  have hcells := map_valuation_ofMask hnames' m
  rw [List.length_map, ← map_valuation_ofMask hnames m, List.map_map] at hcells
  exact List.map_inj_left.1 hcells name (hpushed name hname)

theorem rows_truthTable_map (ρ : Equiv.Perm String)
    (h : ∀ token, a.symbol (ρ token) = (a.symbol token).renamed ρ) (ts : List String) :
    (a.truthTable (.tokens (ts.map ρ))).rows = (a.truthTable (.tokens ts)).rows := by
  have hcompile := compile_map ρ.injective h ts
  cases houtcome : (a.compile (.tokens ts)).outcome with
  | error e =>
      have houtcome' : (a.compile (.tokens (ts.map ρ))).outcome = .error e := by
        rw [hcompile, Compilation.renamed, houtcome]
        rfl
      rw [truthTable_of_outcome_error houtcome, truthTable_of_outcome_error houtcome']
  | ok p =>
      have houtcome' : (a.compile (.tokens (ts.map ρ))).outcome = .ok (p.renamed ρ) := by
        rw [hcompile, Compilation.renamed, houtcome]
        rfl
      have hatoms : (a.compile (.tokens (ts.map ρ))).atoms =
          (a.compile (.tokens ts)).atoms.map ρ := by
        rw [hcompile]
        rfl
      have hpushed : ∀ name ∈ p.pushed, name ∈ (a.compile (.tokens ts)).atoms :=
        fun name hname => (mem_atoms_iff_mem_pushed houtcome).2 hname
      rw [rows_truthTable houtcome, rows_truthTable houtcome', hatoms, List.length_map]
      apply List.map_congr_left
      intro m _
      rw [rowValue_renamed ρ (nodup_atoms houtcome) hpushed]

/-- A permutation of the atoms changes the names in a compiled formula and nothing else; a formula
that fails does so as before.  The truth table keeps its rows, in their order. -/
theorem compile_relabelling (a : Alphabet) (r : Equiv.Perm {name : String // name ∈ a.atoms})
    (ts : List String) :
    a.compile (.tokens (ts.map (a.relabelling r))) =
        (a.compile (.tokens ts)).renamed (a.relabelling r) ∧
      (a.truthTable (.tokens (ts.map (a.relabelling r)))).rows =
        (a.truthTable (.tokens ts)).rows ∧
      (a.truthTable (.tokens (ts.map (a.relabelling r)))).results =
        (a.truthTable (.tokens ts)).results ∧
      (a.truthTable (.tokens (ts.map (a.relabelling r)))).isTautology =
        (a.truthTable (.tokens ts)).isTautology ∧
      (a.truthTable (.tokens (ts.map (a.relabelling r)))).isSatisfiable =
        (a.truthTable (.tokens ts)).isSatisfiable ∧
      (a.truthTable (.tokens (ts.map (a.relabelling r)))).isContradiction =
        (a.truthTable (.tokens ts)).isContradiction := by
  have hcompile := compile_map (a.relabelling r).injective (a.symbol_relabelling r) ts
  have hrows := rows_truthTable_map (a.relabelling r) (a.symbol_relabelling r) ts
  obtain ⟨hresults, htaut, hsat, hcontra⟩ := TruthTable.flags_of_rows_eq hrows
  exact ⟨hcompile, hrows, hresults, htaut, hsat, hcontra⟩

end Alphabet

end Sentential
