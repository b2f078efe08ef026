import Sentential.Proofs.Compiler.Run
/-!
# Groups in a formula

A group is compiled in its place as it is compiled alone: nothing that waits below its opening
parenthesis is looked at before the closing one, which leaves the waiting stack as it was.  What
follows depends on the waiting stack only, so it is compiled as it would be after an atom.
-/

namespace Sentential

namespace Program

/-- The program with every push of a name replaced by the instructions of another program. -/
def substitute (name : String) (q : Program) (p : Program) : Program :=
  p.flatMap fun i => if i = .push name then q else [i]

theorem substitute_append (name : String) (q p p' : Program) :
    substitute name q (p ++ p') = substitute name q p ++ substitute name q p' := by
  simp [substitute]

theorem substitute_push_cons (name : String) (q p : Program) :
    substitute name q (.push name :: p) = q ++ substitute name q p := by
  simp [substitute]

theorem substitute_of_notMem {name : String} {p : Program} (h : name ∉ p.pushed) (q : Program) :
    substitute name q p = p := by
  have hne : ∀ i ∈ p, i ≠ .push name := by
    rintro i hi rfl
    exact h (List.mem_filterMap.2 ⟨_, hi, rfl⟩)
  clear h
  induction p with
  | nil => rfl
  | cons i p ih =>
      rw [substitute, List.flatMap_cons, if_neg (hne i (by simp))]
      exact congrArg (i :: ·) (ih fun j hj => hne j (by simp [hj]))

end Program

namespace Compiler

/-! ## Above an opening parenthesis -/

theorem release_append_opening (c : Connective) (waiting below : List Waiting) :
    release c (waiting ++ .opening :: below) =
      ((release c waiting).1, (release c waiting).2 ++ .opening :: below) := by
  induction waiting with
  | nil => rfl
  | cons w rest ih =>
      cases w with
      | opening => rfl
      | connective d =>
          rw [List.cons_append]
          by_cases hd : c.yieldsTo d = true
          · rw [release_connective_of_yields hd, release_connective_of_yields hd, ih]
          · have hd : c.yieldsTo d = false := by simpa using hd
            rw [release_connective_of_not_yields hd, release_connective_of_not_yields hd]
            rfl

/-- An accepted token is accepted above an opening parenthesis, with the same effect. -/
theorem Transition.above {σ σ' : Compiler} {s : Symbol} (h : Transition σ s σ')
    (below : List Waiting) (emitted : Program) (seen : List String) :
    ∃ seen', Transition ⟨σ.waiting ++ .opening :: below, emitted ++ σ.emitted, seen⟩ s
      ⟨σ'.waiting ++ .opening :: below, emitted ++ σ'.emitted, seen'⟩ := by
  cases h with
  | atom waiting emitted' seen' name =>
      refine ⟨note seen name, ?_⟩
      rw [← List.append_assoc]
      exact .atom _ _ _ name
  | connective c cs kept emitted' seen' hrelease =>
      refine ⟨seen, ?_⟩
      rw [List.append_assoc, List.cons_append, ← List.append_assoc emitted]
      refine .connective c cs _ _ _ ?_
      rw [← List.append_assoc, release_append_opening, hrelease]
  | opening waiting emitted' seen' => exact ⟨seen, .opening _ _ _⟩
  | closing cs rest emitted' seen' =>
      refine ⟨seen, ?_⟩
      rw [List.append_assoc, List.cons_append, ← List.append_assoc emitted]
      exact .closing cs _ _ _

theorem run_above {σ : Compiler} {ss : List Symbol} (h : run {} ss = (σ, none))
    (below : List Waiting) (emitted : Program) (seen : List String) :
    ∃ seen', run ⟨.opening :: below, emitted, seen⟩ ss =
      (⟨σ.waiting ++ .opening :: below, emitted ++ σ.emitted, seen'⟩, none) := by
  refine run_induction (motive := fun τ ss =>
    ∃ seen', run ⟨.opening :: below, emitted, seen⟩ ss =
      (⟨τ.waiting ++ .opening :: below, emitted ++ τ.emitted, seen'⟩, none)) ?_ ?_ h
  · exact ⟨seen, by simp⟩
  · rintro τ τ' ss s ⟨seen', hrun⟩ htrans
    obtain ⟨seen'', habove⟩ := htrans.above below emitted seen'
    exact ⟨seen'', by rw [run_append_of_ok hrun, run_cons_of_transition habove, run_nil]⟩

/-- A group is read as its tokens are read alone. -/
theorem run_group {σ : Compiler} {ss : List Symbol} {p : Program} (hrun : run {} ss = (σ, none))
    (hfinish : σ.finish = .ok p) (waiting : List Waiting) (emitted : Program)
    (seen : List String) :
    ∃ seen', run ⟨waiting, emitted, seen⟩ (.opening :: (ss ++ [.closing])) =
      (⟨waiting, emitted ++ p, seen'⟩, none) := by
  obtain ⟨cs, hwaiting, rfl⟩ := exists_pending_of_finish hfinish
  obtain ⟨seen', habove⟩ := run_above hrun waiting emitted seen
  rw [hwaiting] at habove
  refine ⟨seen', ?_⟩
  rw [run_cons_of_transition (.opening waiting emitted seen), run_append_of_ok habove,
    run_cons_of_transition (.closing cs waiting _ seen'), run_nil, List.append_assoc]

/-! ## What a run depends on -/

/-- What a token does to the waiting stack and adds to the output depends on the waiting stack
only. -/
theorem step_uniform (waiting : List Waiting) (s : Symbol) :
    (∃ waiting' out, ∀ emitted seen, ∃ seen',
      step ⟨waiting, emitted, seen⟩ s = .ok ⟨waiting', emitted ++ out, seen'⟩) ∨
    ∃ e, ∀ emitted seen, step ⟨waiting, emitted, seen⟩ s = .error e := by
  cases s with
  | atom name => exact .inl ⟨waiting, [.push name], fun _ seen => ⟨note seen name, rfl⟩⟩
  | connective c =>
      exact .inl ⟨.connective c :: (release c waiting).2, (release c waiting).1,
        fun _ seen => ⟨seen, rfl⟩⟩
  | opening =>
      exact .inl ⟨.opening :: waiting, [], fun emitted seen => ⟨seen, by
        rw [List.append_nil]
        rfl⟩⟩
  | closing =>
      rcases pending_or_opening waiting with ⟨cs, rfl⟩ | ⟨cs, rest, rfl⟩
      · exact .inr ⟨.mismatchedParentheses, fun _ _ => by simp [step]⟩
      · exact .inl ⟨rest, released cs, fun _ seen => ⟨seen, by simp [step]⟩⟩
  | unknown token => exact .inr ⟨.unknownToken token, fun _ _ => rfl⟩

/-- The program of the tokens that are still to be read, or what is wrong with them. -/
def outcomeFrom (σ : Compiler) (ss : List Symbol) : Except CompileError Program :=
  match run σ ss with
  | (σ', none) => σ'.finish
  | (_, some e) => .error e

section

variable {σ σ' : Compiler} {s : Symbol} {ss us ws : List Symbol} {e : CompileError}
  {name : String} {p : Program}

theorem outcomeFrom_cons_of_transition (h : Transition σ s σ') :
    outcomeFrom σ (s :: ss) = outcomeFrom σ' ss := by
  rw [outcomeFrom, run_cons_of_transition h]
  rfl

theorem outcomeFrom_cons_of_error (h : σ.step s = .error e) :
    outcomeFrom σ (s :: ss) = .error e := by
  rw [outcomeFrom, run_cons_of_error h]

theorem outcomeFrom_append_of_ok (h : run σ us = (σ', none)) :
    outcomeFrom σ (us ++ ws) = outcomeFrom σ' ws := by
  rw [outcomeFrom, run_append_of_ok h]
  rfl

theorem outcomeFrom_append_of_error (h : run σ us = (σ', some e)) :
    outcomeFrom σ (us ++ ws) = .error e := by
  rw [outcomeFrom, run_append_of_error h]

/-- What has been emitted stays in front, and what follows does not depend on it. -/
theorem outcomeFrom_eq_map (waiting : List Waiting) (emitted : Program) (seen : List String)
    (ss : List Symbol) :
    outcomeFrom ⟨waiting, emitted, seen⟩ ss =
      (outcomeFrom ⟨waiting, [], []⟩ ss).map (emitted ++ ·) := by
  induction ss generalizing waiting emitted seen with
  | nil =>
      rcases pending_or_opening waiting with ⟨cs, rfl⟩ | ⟨cs, rest, rfl⟩
      · simp [outcomeFrom, finish, Except.map]
      · simp [outcomeFrom, finish, Except.map]
  | cons s ss ih =>
      rcases step_uniform waiting s with ⟨waiting', out, hstep⟩ | ⟨e, hstep⟩
      · -- both runs are in the same waiting stack after the token, so the induction takes over
        obtain ⟨seen', hfull⟩ := hstep emitted seen
        obtain ⟨seen'', halone⟩ := hstep [] []
        rw [outcomeFrom_cons_of_transition (.of_step hfull),
          outcomeFrom_cons_of_transition (.of_step halone), ih waiting' (emitted ++ out),
          ih waiting' ([] ++ out)]
        cases outcomeFrom ⟨waiting', [], []⟩ ss with
        | error e => rfl
        | ok q => simp [Except.map]
      · rw [outcomeFrom_cons_of_error (hstep emitted seen), outcomeFrom_cons_of_error (hstep [] [])]
        rfl

theorem exists_run_of_outcomeFrom (h : outcomeFrom σ ss = .ok p) :
    ∃ σ', run σ ss = (σ', none) ∧ σ'.finish = .ok p := by
  rw [outcomeFrom] at h
  rcases hrun : run σ ss with ⟨σ', _ | e⟩
  · rw [hrun] at h
    exact ⟨σ', rfl, h⟩
  · rw [hrun] at h
    cases h

theorem pushed_of_outcomeFrom (h : outcomeFrom σ ss = .ok p) :
    p.pushed = σ.emitted.pushed ++ ss.filterMap Symbol.atom? := by
  obtain ⟨σ', hrun, hfinish⟩ := exists_run_of_outcomeFrom h
  rw [pushed_of_finish hfinish, pushed_of_run hrun]

/-- A group has the outcome of an atom in its place, with the program of the group for the push of
the atom. -/
theorem outcomeFrom_group (hrun : run {} ss = (σ, none)) (hfinish : σ.finish = .ok p)
    (hus : name ∉ us.filterMap Symbol.atom?) (hws : name ∉ ws.filterMap Symbol.atom?) :
    outcomeFrom {} (us ++ (.opening :: (ss ++ [.closing]) ++ ws)) =
      (outcomeFrom {} (us ++ .atom name :: ws)).map (Program.substitute name p) := by
  rcases hbefore : run {} us with ⟨⟨waiting, emitted, seen⟩, _ | e⟩
  · obtain ⟨seen', hgroup⟩ := run_group hrun hfinish waiting emitted seen
    rw [outcomeFrom_append_of_ok hbefore, outcomeFrom_append_of_ok hgroup,
      outcomeFrom_append_of_ok hbefore,
      outcomeFrom_cons_of_transition (.atom waiting emitted seen name),
      outcomeFrom_eq_map waiting (emitted ++ p), outcomeFrom_eq_map waiting (emitted ++ [_])]
    cases hafter : outcomeFrom ⟨waiting, [], []⟩ ws with
    | error e => rfl
    | ok q =>
        have hemitted : name ∉ emitted.pushed := by
          rw [pushed_of_run hbefore]
          exact hus
        have hq : name ∉ q.pushed := by
          rw [pushed_of_outcomeFrom hafter]
          exact hws
        have hsubstitute : Program.substitute name p (emitted ++ [.push name] ++ q) =
            emitted ++ p ++ q := by
          rw [List.append_assoc, List.singleton_append, Program.substitute_append,
            Program.substitute_push_cons, Program.substitute_of_notMem hemitted,
            Program.substitute_of_notMem hq, List.append_assoc]
        exact congrArg Except.ok hsubstitute.symm
  · rw [outcomeFrom_append_of_error hbefore, outcomeFrom_append_of_error hbefore]
    rfl

end

end Compiler

namespace Alphabet

open Compiler

/-- The alphabet with one more atom. -/
def extended (a : Alphabet) (name : String) : Alphabet := { a with atoms := a.atoms ++ [name] }

section

variable {a : Alphabet} {name token : String} {ts : List String}

theorem symbol_extended_self (a : Alphabet) (name : String) :
    (a.extended name).symbol name = .atom name :=
  symbol_of_mem (by simp [extended])

theorem symbol_extended_of_ne (h : token ≠ name) :
    (a.extended name).symbol token = a.symbol token := by
  have hatom : (a.extended name).isAtom token = a.isAtom token := by
    simp [isAtom, extended, h]
  rw [symbol, symbol, hatom]

theorem map_symbol_extended (h : name ∉ ts) :
    ts.map (a.extended name).symbol = ts.map a.symbol := by
  apply List.map_congr_left
  intro token htoken
  exact symbol_extended_of_ne fun heq => h (heq ▸ htoken)

theorem notMem_atoms_read (h : name ∉ ts) : name ∉ (ts.map a.symbol).filterMap Symbol.atom? := by
  rw [a.filterMap_atom?_symbol]
  exact fun hmem => h (List.mem_filter.1 hmem).1

theorem outcome_compile (a : Alphabet) (ts : List String) :
    (a.compile (.tokens ts)).outcome = outcomeFrom {} (ts.map a.symbol) := by
  unfold compile tokens outcomeFrom
  rcases hrun : run {} (ts.map a.symbol) with ⟨σ, _ | e⟩
  · rw [compileTokens_of_run hrun]
  · rw [compileTokens_of_run_error hrun]

end

/-- A group that compiles alone can be compiled as a fresh atom in its place: either both formulas
fail, and with the same failure, or the program of the atom becomes that of the group when its one
push of the atom is replaced by the program of the group. -/
theorem compile_group (a : Alphabet) (hopening : "(" ∉ a.atoms) (hclosing : ")" ∉ a.atoms)
    {before inside after : List String} {p : Program} {name : String}
    (hinside : (a.compile (.tokens inside)).outcome = .ok p) (hbefore : name ∉ before)
    (hafter : name ∉ after) :
    (a.compile (.tokens (before ++ ["("] ++ inside ++ [")"] ++ after))).outcome =
        ((a.extended name).compile (.tokens (before ++ [name] ++ after))).outcome.map
          (Program.substitute name p) ∧
      ∀ q, ((a.extended name).compile (.tokens (before ++ [name] ++ after))).outcome = .ok q →
        q.count (.push name) = 1 := by
  constructor
  · have hgroup : (before ++ ["("] ++ inside ++ [")"] ++ after).map a.symbol =
        before.map a.symbol ++
          (.opening :: (inside.map a.symbol ++ [.closing]) ++ after.map a.symbol) := by
      simp [symbol_opening hopening, symbol_closing hclosing]
    have hatom : (before ++ [name] ++ after).map (a.extended name).symbol =
        before.map a.symbol ++ .atom name :: after.map a.symbol := by
      simp only [List.map_append, List.map_cons, symbol_extended_self,
        map_symbol_extended hbefore, map_symbol_extended hafter, List.append_assoc,
        List.singleton_append]
    obtain ⟨σ, hrun, hfinish, _⟩ := exists_run_of_outcome hinside
    rw [outcome_compile, outcome_compile, hgroup, hatom]
    exact outcomeFrom_group hrun hfinish (notMem_atoms_read hbefore) (notMem_atoms_read hafter)
  · intro q hq
    have hname : (a.extended name).isAtom name = true := isAtom_iff.2 (by simp [extended])
    have hpushed : q.pushed = (before ++ [name] ++ after).filter (a.extended name).isAtom :=
      pushed_of_outcome hq
    rw [Program.count_push, hpushed, List.count_filter hname, List.count_append,
      List.count_append, List.count_eq_zero.2 hbefore, List.count_eq_zero.2 hafter,
      List.count_singleton_self]

/-- A negation waits while the group after it is read, and is released by the conditional behind the
group as it would be behind an atom. -/
theorem compile_group_negated :
    (builder.compile (.tokens ["P", "→", "Q", "∨"])).outcome =
        .ok [.push "P", .push "Q", .apply (.binary .or), .apply (.binary .implies)] ∧
      ((builder.extended "x").compile (.tokens ["S", "∧", "¬", "x", "→", "R"])).outcome =
        .ok [.push "S", .push "x", .apply .not, .apply (.binary .and), .push "R",
          .apply (.binary .implies)] ∧
      (builder.compile (.tokens
        ["S", "∧", "¬", "(", "P", "→", "Q", "∨", ")", "→", "R"])).outcome =
        .ok [.push "S", .push "P", .push "Q", .apply (.binary .or), .apply (.binary .implies),
          .apply .not, .apply (.binary .and), .push "R", .apply (.binary .implies)] := by
  have hinside : (builder.compile (.tokens ["P", "→", "Q", "∨"])).outcome =
      .ok [.push "P", .push "Q", .apply (.binary .or), .apply (.binary .implies)] := rfl
  have hbefore : "x" ∉ ["S", "∧", "¬"] := by decide
  have hafter : "x" ∉ ["→", "R"] := by decide
  exact ⟨hinside, rfl,
    (compile_group builder (by decide) (by decide) hinside hbefore hafter).1⟩

end Alphabet

end Sentential
