import Sentential.Proofs.Compiler.Waiting
import Sentential.Proofs.Program
import Sentential.Proofs.Symbol
import Mathlib.Data.List.Induction
/-!
# Runs of the compiler

What one token can do to the compiler, and what a run of tokens does to its output.  Whatever the
tokens are, the names pushed so far are the atoms read so far, and those seen are the distinct ones
among them in the order of their first occurrence.
-/

namespace Sentential

namespace Compiler

@[simp] theorem pushed_released (cs : List Connective) : (released cs).pushed = [] := by
  simp [released, Program.pushed, Instruction.pushed?]

/-- The tokens that the compiler accepts in a state, and the state after each. -/
inductive Transition : Compiler → Symbol → Compiler → Prop
  | atom (waiting : List Waiting) (emitted : Program) (seen : List String) (name : String) :
      Transition ⟨waiting, emitted, seen⟩ (.atom name)
        ⟨waiting, emitted ++ [.push name], note seen name⟩
  | connective (c : Connective) (cs : List Connective) (kept : List Waiting) (emitted : Program)
      (seen : List String) (h : release c (pending cs ++ kept) = (released cs, kept)) :
      Transition ⟨pending cs ++ kept, emitted, seen⟩ (.connective c)
        ⟨.connective c :: kept, emitted ++ released cs, seen⟩
  | opening (waiting : List Waiting) (emitted : Program) (seen : List String) :
      Transition ⟨waiting, emitted, seen⟩ .opening ⟨.opening :: waiting, emitted, seen⟩
  | closing (cs : List Connective) (rest : List Waiting) (emitted : Program)
      (seen : List String) :
      Transition ⟨pending cs ++ .opening :: rest, emitted, seen⟩ .closing
        ⟨rest, emitted ++ released cs, seen⟩

namespace Transition

variable {σ σ' : Compiler} {s : Symbol}

theorem step_eq (h : Transition σ s σ') : σ.step s = .ok σ' := by
  cases h with
  | atom => rfl
  | connective c cs kept emitted seen hrelease =>
      simp only [step, hrelease]
  | opening => rfl
  | closing cs rest emitted seen =>
      simp only [step, closeGroup_pending_append]

theorem of_step (h : σ.step s = .ok σ') : Transition σ s σ' := by
  obtain ⟨waiting, emitted, seen⟩ := σ
  cases s with
  | atom name =>
      cases h
      exact .atom waiting emitted seen name
  | connective c =>
      obtain ⟨cs, kept, rfl, hrelease⟩ := exists_release_eq c waiting
      have hstep := step_eq (.connective c cs kept emitted seen hrelease)
      rw [hstep] at h
      cases h
      exact .connective c cs kept emitted seen hrelease
  | opening =>
      cases h
      exact .opening waiting emitted seen
  | closing =>
      rcases pending_or_opening waiting with ⟨cs, rfl⟩ | ⟨cs, rest, rfl⟩
      · simp [step] at h
      · have hstep := step_eq (.closing cs rest emitted seen)
        rw [hstep] at h
        cases h
        exact .closing cs rest emitted seen
  | unknown token => cases h

theorem pushed_emitted (h : Transition σ s σ') :
    σ'.emitted.pushed = σ.emitted.pushed ++ s.atom?.toList := by
  cases h <;> simp [Symbol.atom?]

theorem seen_eq (h : Transition σ s σ') : σ'.seen = s.atom?.toList.foldl note σ.seen := by
  cases h <;> rfl

end Transition

/-! ## Runs -/

variable {σ σ' : Compiler} {s : Symbol} {e : CompileError} {ss ts : List Symbol}

@[simp] theorem run_nil (σ : Compiler) : run σ [] = (σ, none) := rfl

theorem run_cons_of_transition (h : Transition σ s σ') (rest : List Symbol) :
    run σ (s :: rest) = run σ' rest := by
  rw [run, h.step_eq]

theorem run_cons_of_error (h : σ.step s = .error e) (rest : List Symbol) :
    run σ (s :: rest) = (σ, some e) := by
  rw [run, h]

theorem run_append_of_ok (h : run σ ss = (σ', none)) (ts : List Symbol) :
    run σ (ss ++ ts) = run σ' ts := by
  induction ss generalizing σ with
  | nil =>
      cases h
      rfl
  | cons s ss ih =>
      rw [List.cons_append, run]
      rw [run] at h
      cases hstep : σ.step s with
      | ok τ =>
          rw [hstep] at h
          exact ih h
      | error e =>
          rw [hstep] at h
          simp at h

theorem run_append_of_error (h : run σ ss = (σ', some e)) (ts : List Symbol) :
    run σ (ss ++ ts) = (σ', some e) := by
  induction ss generalizing σ with
  | nil => cases h
  | cons s ss ih =>
      rw [run] at h
      rw [List.cons_append, run]
      cases hstep : σ.step s with
      | ok τ =>
          rw [hstep] at h
          exact ih h
      | error e' =>
          rw [hstep] at h
          exact h

/-- What every accepted token preserves, or adds to, a run of accepted tokens does as a whole. -/
theorem run_induction {motive : Compiler → List Symbol → Prop} (nil : motive σ [])
    (snoc : ∀ τ τ' ss s, motive τ ss → Transition τ s τ' → motive τ' (ss ++ [s]))
    (h : run σ ss = (σ', none)) : motive σ' ss := by
  -- the tokens already read are kept in front of those still to come
  suffices hall : ∀ before τ, motive τ before → run τ ss = (σ', none) →
      motive σ' (before ++ ss) from hall [] σ nil h
  clear h nil
  induction ss with
  | nil =>
      intro before τ hτ hrun
      cases hrun
      simpa using hτ
  | cons s ss ih =>
      intro before τ hτ hrun
      rw [run] at hrun
      cases hstep : τ.step s with
      | ok τ' =>
          rw [hstep] at hrun
          have hnext := ih (before ++ [s]) τ' (snoc τ τ' before s hτ (.of_step hstep)) hrun
          simpa using hnext
      | error e =>
          rw [hstep] at hrun
          simp at hrun

theorem pushed_of_run (h : run σ ss = (σ', none)) :
    σ'.emitted.pushed = σ.emitted.pushed ++ ss.filterMap Symbol.atom? := by
  refine run_induction (motive := fun τ ss =>
    τ.emitted.pushed = σ.emitted.pushed ++ ss.filterMap Symbol.atom?) (by simp) ?_ h
  intro τ τ' ss s hτ htrans
  rw [htrans.pushed_emitted, hτ, List.filterMap_append, List.append_assoc]
  cases hs : s.atom? <;> simp [hs]

theorem seen_of_run (h : run σ ss = (σ', none)) :
    σ'.seen = (ss.filterMap Symbol.atom?).foldl note σ.seen := by
  refine run_induction (motive := fun τ ss =>
    τ.seen = (ss.filterMap Symbol.atom?).foldl note σ.seen) (by simp) ?_ h
  intro τ τ' ss s hτ htrans
  rw [htrans.seen_eq, hτ, List.filterMap_append, List.foldl_append]
  cases hs : s.atom? <;> simp [hs]

/-! ## The atoms of a compilation -/

theorem eraseDups_concat (names : List String) (name : String) :
    (names ++ [name]).eraseDups = note names.eraseDups name := by
  rw [List.eraseDups_append, note]
  by_cases hname : name ∈ names <;> simp [List.removeAll, List.eraseDups_cons, hname]

theorem foldl_note (names : List String) : names.foldl note [] = names.eraseDups := by
  induction names using List.reverseRecOn with
  | nil => rfl
  | append_singleton names name ih =>
      rw [List.foldl_append, ih, eraseDups_concat]
      rfl

theorem nodup_eraseDups (names : List String) : names.eraseDups.Nodup := by
  induction names using List.reverseRecOn with
  | nil => exact List.nodup_nil
  | append_singleton names name ih =>
      rw [eraseDups_concat, note]
      by_cases hname : name ∈ names.eraseDups
      · rwa [if_pos (by simpa using hname)]
      · rw [if_neg (by simpa using hname)]
        exact List.nodup_append.2 ⟨ih, by simp, by
          intro n hn m hm heq
          rw [List.mem_singleton.1 hm] at heq
          exact hname (heq ▸ hn)⟩

theorem seen_of_run_symbols {a : Alphabet} {ts : List String}
    (h : run {} (ts.map a.symbol) = (σ, none)) : σ.seen = (ts.filter a.isAtom).eraseDups := by
  rw [seen_of_run h, a.filterMap_atom?_symbol, foldl_note]

/-- Tokens that leave no group open leave connectives on the waiting stack only. -/
theorem exists_pending_of_finish {p : Program} (h : σ.finish = .ok p) :
    ∃ cs, σ.waiting = pending cs ∧ p = σ.emitted ++ released cs := by
  rw [finish] at h
  rcases pending_or_opening σ.waiting with ⟨cs, hcs⟩ | ⟨cs, rest, hcs⟩
  · rw [hcs, releaseAll_pending] at h
    cases h
    exact ⟨cs, hcs, rfl⟩
  · rw [hcs, releaseAll_pending_append_opening] at h
    cases h

theorem pushed_of_finish {p : Program} (h : σ.finish = .ok p) :
    p.pushed = σ.emitted.pushed := by
  obtain ⟨cs, _, rfl⟩ := exists_pending_of_finish h
  rw [Program.pushed_append, pushed_released, List.append_nil]

end Compiler

namespace Alphabet

open Compiler

variable {a : Alphabet} {ts : List String} {p : Program} {σ : Compiler}

theorem compileTokens_of_run (h : run {} (ts.map a.symbol) = (σ, none)) :
    a.compileTokens ts = ⟨σ.seen, σ.finish⟩ := by
  unfold compileTokens
  rw [h]

theorem compileTokens_of_run_error {e : CompileError}
    (h : run {} (ts.map a.symbol) = (σ, some e)) : a.compileTokens ts = ⟨σ.seen, .error e⟩ := by
  unfold compileTokens
  rw [h]

theorem exists_run_of_outcome (h : (a.compileTokens ts).outcome = .ok p) :
    ∃ σ, run {} (ts.map a.symbol) = (σ, none) ∧ σ.finish = .ok p ∧
      (a.compileTokens ts).atoms = σ.seen := by
  rcases hrun : run {} (ts.map a.symbol) with ⟨σ, _ | e⟩
  · rw [compileTokens_of_run hrun] at h ⊢
    exact ⟨σ, rfl, h, rfl⟩
  · rw [compileTokens_of_run_error hrun] at h
    cases h

/-- A compiled program pushes the tokens that are atoms, in their order. -/
theorem pushed_of_outcome (h : (a.compileTokens ts).outcome = .ok p) :
    p.pushed = ts.filter a.isAtom := by
  obtain ⟨σ, hrun, hfinish, _⟩ := exists_run_of_outcome h
  rw [pushed_of_finish hfinish, pushed_of_run hrun, a.filterMap_atom?_symbol]
  rfl

theorem atoms_of_outcome (h : (a.compileTokens ts).outcome = .ok p) :
    (a.compileTokens ts).atoms = p.pushed.eraseDups := by
  obtain ⟨σ, hrun, _, hatoms⟩ := exists_run_of_outcome h
  rw [hatoms, seen_of_run_symbols hrun, pushed_of_outcome h]

theorem mem_atoms_iff_mem_pushed (h : (a.compileTokens ts).outcome = .ok p) {name : String} :
    name ∈ (a.compileTokens ts).atoms ↔ name ∈ p.pushed := by
  rw [atoms_of_outcome h, List.mem_eraseDups]

theorem mem_atoms_of_mem_pushed (h : (a.compileTokens ts).outcome = .ok p) :
    ∀ name ∈ p.pushed, name ∈ a.atoms := by
  intro name hname
  rw [pushed_of_outcome h] at hname
  exact isAtom_iff.1 (List.mem_filter.1 hname).2

end Alphabet

end Sentential
