import Sentential.Proofs.Compiler.Run
/-!
# When a token list compiles

The compiler fails at the first token that is unknown or closes a group where none is open, and at
the end if a group is left open.  How many groups are open is read off the tokens; the compiler
itself knows it only as the number of opening parentheses on its waiting stack.
-/

namespace Sentential

namespace Alphabet

/-- How many groups are open after the tokens. -/
def openGroups (a : Alphabet) (ts : List String) : Nat :=
  ts.countP a.isOpening - ts.countP a.isClosing

/-- What is wrong with the token at a place: it is unknown, or it closes a group and none is
open. -/
inductive FaultAt (a : Alphabet) (ts : List String) (k : Nat) : CompileError → Prop
  | unknown {token : String} (hget : ts[k]? = some token) (hmem : token ∉ a.atoms)
      (htext : ∀ c : Connective, token ≠ c.text) (hopening : token ≠ "(")
      (hclosing : token ≠ ")") : FaultAt a ts k (.unknownToken token)
  | unopened (hget : ts[k]? = some ")") (hmem : ")" ∉ a.atoms)
      (hopen : a.openGroups (ts.take k) = 0) : FaultAt a ts k .mismatchedParentheses

structure FirstFault (a : Alphabet) (ts : List String) (k : Nat) (e : CompileError) : Prop where
  fault : a.FaultAt ts k e
  not_before : ∀ j < k, ∀ e', ¬ a.FaultAt ts j e'

theorem FaultAt.lt_length {a : Alphabet} {ts : List String} {k : Nat} {e : CompileError}
    (h : a.FaultAt ts k e) : k < ts.length := by
  have hsome : ts[k]?.isSome := by
    cases h <;> simp_all
  simpa using hsome

theorem faultAt_take_iff {a : Alphabet} {ts : List String} {n k : Nat} {e : CompileError}
    (hk : k < n) : a.FaultAt (ts.take n) k e ↔ a.FaultAt ts k e := by
  have hget : (ts.take n)[k]? = ts[k]? := by
    rw [List.getElem?_take, if_pos hk]
  have htake : (ts.take n).take k = ts.take k := by
    rw [List.take_take, Nat.min_eq_left (Nat.le_of_lt hk)]
  constructor
  · intro h
    cases h with
    | unknown h hmem htext ho hc => exact .unknown (hget ▸ h) hmem htext ho hc
    | unopened h hmem hopen => exact .unopened (hget ▸ h) hmem (htake ▸ hopen)
  · intro h
    cases h with
    | unknown h hmem htext ho hc => exact .unknown (hget ▸ h) hmem htext ho hc
    | unopened h hmem hopen => exact .unopened (hget ▸ h) hmem (htake.symm ▸ hopen)

end Alphabet

namespace Compiler

variable {a : Alphabet} {ts : List String} {σ : Compiler} {k : Nat} {e : CompileError}

/-- Every group that is open has its parenthesis on the waiting stack. -/
theorem count_opening_of_run (h : run {} (ts.map a.symbol) = (σ, none)) :
    ts.countP a.isOpening = ts.countP a.isClosing + σ.waiting.count .opening := by
  have hsymbols : (ts.map a.symbol).count .opening =
      (ts.map a.symbol).count .closing + σ.waiting.count .opening := by
    refine run_induction (motive := fun τ ss =>
      ss.count .opening = ss.count .closing + τ.waiting.count .opening) rfl ?_ h
    intro τ τ' ss s hτ htrans
    rw [List.count_append, List.count_append]
    cases htrans <;> simp at hτ ⊢ <;> omega
  rwa [Alphabet.count_symbols fun _ => Alphabet.symbol_eq_opening_iff,
    Alphabet.count_symbols fun _ => Alphabet.symbol_eq_closing_iff] at hsymbols

theorem step_eq_error_iff {s : Symbol} :
    σ.step s = .error e ↔
      (∃ token, s = .unknown token ∧ e = .unknownToken token) ∨
        (s = .closing ∧ σ.waiting.count .opening = 0 ∧ e = .mismatchedParentheses) := by
  obtain ⟨waiting, emitted, seen⟩ := σ
  cases s with
  | atom name => simp [step]
  | connective c => simp [step]
  | opening => simp [step]
  | closing =>
      rcases pending_or_opening waiting with ⟨cs, rfl⟩ | ⟨cs, rest, rfl⟩
      · simp [step, eq_comm]
      · simp [step]
  | unknown token => simp [step, eq_comm]

theorem finish_cases (σ : Compiler) :
    (σ.waiting.count .opening = 0 ∧ ∃ p, σ.finish = .ok p) ∨
      (σ.waiting.count .opening ≠ 0 ∧ σ.finish = .error .mismatchedParentheses) := by
  obtain ⟨waiting, emitted, seen⟩ := σ
  rcases pending_or_opening waiting with ⟨cs, rfl⟩ | ⟨cs, rest, rfl⟩
  · exact .inl ⟨by simp, emitted ++ released cs, by simp [finish]⟩
  · exact .inr ⟨by simp, by simp [finish]⟩

/-- A token after a run of accepted ones fails exactly if it is at fault. -/
theorem step_eq_error_iff_faultAt {token : String} (h : run {} (ts.map a.symbol) = (σ, none)) :
    σ.step (a.symbol token) = .error e ↔ a.FaultAt (ts ++ [token]) ts.length e := by
  have hget : (ts ++ [token])[ts.length]? = some token := by simp
  have htake : (ts ++ [token]).take ts.length = ts := by simp
  have hcount := count_opening_of_run h
  rw [step_eq_error_iff]
  constructor
  · rintro (⟨t, ht, rfl⟩ | ⟨ht, hzero, rfl⟩)
    · obtain ⟨rfl, hmem, htext, ho, hc⟩ := Alphabet.symbol_eq_unknown_iff.1 ht
      exact .unknown hget hmem htext ho hc
    · obtain ⟨rfl, hmem⟩ : token = ")" ∧ token ∉ a.atoms := by
        simpa [Alphabet.isClosing, Alphabet.isAtom] using Alphabet.symbol_eq_closing_iff.1 ht
      refine .unopened hget hmem ?_
      rw [htake, Alphabet.openGroups]
      omega
  · intro hfault
    cases hfault with
    | unknown hget' hmem htext ho hc =>
        cases hget.symm.trans hget'
        exact .inl ⟨_, Alphabet.symbol_of_other hmem htext ho hc, rfl⟩
    | unopened hget' hmem hopen =>
        cases hget.symm.trans hget'
        rw [htake, Alphabet.openGroups] at hopen
        exact .inr ⟨Alphabet.symbol_closing hmem, by omega, rfl⟩

theorem exists_run_of_not_faultAt (h : ∀ k e, ¬ a.FaultAt ts k e) :
    ∃ σ, run {} (ts.map a.symbol) = (σ, none) := by
  induction ts using List.reverseRecOn with
  | nil => exact ⟨{}, rfl⟩
  | append_singleton ts token ih =>
      have hbefore : ∀ k e, ¬ a.FaultAt ts k e := by
        intro k e hfault
        have hk := hfault.lt_length
        have htake : (ts ++ [token]).take ts.length = ts := by simp
        exact h k e ((Alphabet.faultAt_take_iff hk).1 (htake.symm ▸ hfault))
      obtain ⟨σ, hσ⟩ := ih hbefore
      rw [List.map_append, List.map_singleton, run_append_of_ok hσ]
      cases hstep : σ.step (a.symbol token) with
      | ok σ' => exact ⟨σ', run_cons_of_transition (.of_step hstep) []⟩
      | error e => exact absurd ((step_eq_error_iff_faultAt hσ).1 hstep) (h _ e)

/-- The run stops at the first fault, in the state before it. -/
theorem run_of_firstFault (h : a.FirstFault ts k e) :
    ∃ σ, run {} ((ts.take k).map a.symbol) = (σ, none) ∧
      run {} (ts.map a.symbol) = (σ, some e) := by
  have hk := h.fault.lt_length
  have hlength : (ts.take k).length = k := by
    rw [List.length_take, Nat.min_eq_left (Nat.le_of_lt hk)]
  have hbefore : ∀ j e', ¬ a.FaultAt (ts.take k) j e' := by
    intro j e' hfault
    have hj : j < k := hlength ▸ hfault.lt_length
    exact h.not_before j hj e' ((Alphabet.faultAt_take_iff hj).1 hfault)
  obtain ⟨σ, hσ⟩ := exists_run_of_not_faultAt hbefore
  refine ⟨σ, hσ, ?_⟩
  have hfault : a.FaultAt (ts.take k ++ [ts[k]]) (ts.take k).length e := by
    rw [List.take_append_getElem hk, hlength]
    exact (Alphabet.faultAt_take_iff (Nat.lt_succ_self k)).2 h.fault
  have hstep := (step_eq_error_iff_faultAt hσ).2 hfault
  have hsplit : ts.map a.symbol =
      (ts.take k).map a.symbol ++ a.symbol ts[k] :: (ts.drop (k + 1)).map a.symbol := by
    rw [← List.map_cons, ← List.map_append, List.getElem_cons_drop, List.take_append_drop]
  rw [hsplit, run_append_of_ok hσ, run_cons_of_error hstep]

end Compiler

namespace Alphabet

open Compiler

/-- The first fault decides the failure, and the atoms are those before it.  Without a fault only a
group that is left open makes the compilation fail. -/
theorem compile_outcome (a : Alphabet) (ts : List String) :
    (∀ k e, a.FirstFault ts k e →
      a.compile (.tokens ts) = ⟨((ts.take k).filter a.isAtom).eraseDups, .error e⟩) ∧
    ((∀ k e, ¬ a.FaultAt ts k e) →
      (a.openGroups ts ≠ 0 →
        a.compile (.tokens ts) =
          ⟨(ts.filter a.isAtom).eraseDups, .error .mismatchedParentheses⟩) ∧
      (a.openGroups ts = 0 →
        ∃ p, a.compile (.tokens ts) = ⟨(ts.filter a.isAtom).eraseDups, .ok p⟩)) ∧
    (∀ e, (a.compile (.tokens ts)).outcome = .error e →
      (a.compile (.tokens ts)).program = []) := by
  refine ⟨?_, ?_, ?_⟩
  · intro k e h
    obtain ⟨σ, hbefore, hrun⟩ := run_of_firstFault h
    unfold compile tokens
    rw [compileTokens_of_run_error hrun, seen_of_run_symbols hbefore]
  · intro h
    obtain ⟨σ, hrun⟩ := exists_run_of_not_faultAt h
    have hcount := count_opening_of_run hrun
    unfold compile tokens openGroups
    rw [compileTokens_of_run hrun, seen_of_run_symbols hrun]
    rcases σ.finish_cases with ⟨hzero, p, hfinish⟩ | ⟨hopen, hfinish⟩
    · exact ⟨fun h => by omega, fun _ => ⟨p, by rw [hfinish]⟩⟩
    · exact ⟨fun _ => by rw [hfinish], fun h => by omega⟩
  · intro e h
    rw [Compilation.program, h]

/-- Of two faults the first one counts, and the atoms after it are not seen. -/
theorem compile_outcome_unopened :
    builder.FirstFault ["P", ")", "x", "Q"] 1 .mismatchedParentheses ∧
      builder.compile (.tokens ["P", ")", "x", "Q"]) =
        ⟨["P"], .error .mismatchedParentheses⟩ := by
  have hfirst : builder.FirstFault ["P", ")", "x", "Q"] 1 .mismatchedParentheses := by
    refine ⟨.unopened rfl (by decide) (by decide), ?_⟩
    intro j hj e hfault
    obtain rfl : j = 0 := by omega
    cases hfault with
    | unknown hget hmem =>
        cases hget
        exact hmem (by decide)
    | unopened hget => exact absurd hget (by decide)
  exact ⟨hfirst, (compile_outcome builder _).1 1 _ hfirst⟩

end Alphabet

end Sentential
