import Sentential.Proofs.Compiler.Run
import Sentential.Proofs.Grammar
import Sentential.Value
/-!
# Compiling the formulas of the grammar

The compiler builds no tree.  Having read the tokens of a formula, it has emitted a first part of
the postorder program and holds the rest as a run of connectives on top of the waiting stack.  All
of these bind at least as tightly as the stratum of the formula, so whatever may follow the formula
in its stratum releases them; and nothing in the formula has released what lay below them.
-/

namespace Sentential

namespace Compiler

/-- No binary connective of at least the given precedence releases anything. -/
def Firm (level : Nat) (waiting : List Waiting) : Prop :=
  ∀ c : BinaryConnective, level ≤ (Connective.binary c).precedence →
    release (.binary c) waiting = ([], waiting)

theorem Firm.mono {level level' : Nat} (hle : level ≤ level') {waiting : List Waiting}
    (h : Firm level waiting) : Firm level' waiting :=
  fun c hc => h c (Nat.le_trans hle hc)

theorem firm_nil (level : Nat) : Firm level [] := fun _ _ => rfl

theorem firm_opening (level : Nat) (rest : List Waiting) : Firm level (.opening :: rest) :=
  fun _ _ => rfl

theorem firm_four (waiting : List Waiting) : Firm 4 waiting := by
  intro c hc
  cases c <;> exact absurd hc (by decide)

theorem firm_connective {d : Connective} {level : Nat} (h : d.precedence < level)
    (rest : List Waiting) : Firm level (.connective d :: rest) := by
  intro c hc
  apply release_connective_of_not_yields
  have hlt : d.precedence < (Connective.binary c).precedence := by omega
  simpa [Connective.yieldsTo, Connective.associativity] using hlt

/-- The tokens are read as the formula, at any place where no connective of at least the given
precedence finds something to release. -/
def Reads (level : Nat) (ss : List Symbol) (f : Formula) : Prop :=
  ∀ waiting emitted seen, Firm level waiting →
    ∃ out cs seen',
      run ⟨waiting, emitted, seen⟩ ss = (⟨pending cs ++ waiting, emitted ++ out, seen'⟩, none) ∧
      out ++ released cs = f.postorder ∧ ∀ c ∈ cs, level ≤ c.precedence

namespace Reads

theorem mono {level level' : Nat} {ss : List Symbol} {f : Formula} (hle : level ≤ level')
    (h : Reads level' ss f) : Reads level ss f := by
  intro waiting emitted seen hfirm
  obtain ⟨out, cs, seen', hrun, hpost, hcs⟩ := h waiting emitted seen (hfirm.mono hle)
  exact ⟨out, cs, seen', hrun, hpost, fun c hc => Nat.le_trans hle (hcs c hc)⟩

theorem atom (level : Nat) (name : String) : Reads level [.atom name] (.atom name) := by
  intro waiting emitted seen _
  exact ⟨[.push name], [], note seen name, rfl, rfl, by simp⟩

theorem negation {ss : List Symbol} {f : Formula} (h : Reads 4 ss f) :
    Reads 4 (.connective .not :: ss) (.negation f) := by
  intro waiting emitted seen _
  obtain ⟨out, cs, seen', hrun, hpost, hcs⟩ :=
    h (.connective .not :: waiting) emitted seen (firm_four _)
  have hstep : Transition ⟨waiting, emitted, seen⟩ (.connective .not)
      ⟨.connective .not :: waiting, emitted ++ released [], seen⟩ :=
    .connective .not [] waiting emitted seen (release_not waiting)
  rw [released_nil, List.append_nil] at hstep
  refine ⟨out, cs ++ [.not], seen', ?_, ?_, ?_⟩
  · rw [run_cons_of_transition hstep, hrun]
    simp
  · rw [released_append, ← List.append_assoc, hpost]
    rfl
  · intro c hc
    rcases List.mem_append.1 hc with hc | hc
    · exact hcs c hc
    · obtain rfl := List.mem_singleton.1 hc
      decide

theorem group {ss : List Symbol} {f : Formula} (h : Reads 1 ss f) :
    Reads 4 (.opening :: (ss ++ [.closing])) f := by
  intro waiting emitted seen _
  obtain ⟨out, cs, seen', hrun, hpost, _⟩ :=
    h (.opening :: waiting) emitted seen (firm_opening 1 waiting)
  refine ⟨out ++ released cs, [], seen', ?_, ?_, by simp⟩
  · rw [run_cons_of_transition (.opening waiting emitted seen), run_append_of_ok hrun,
      run_cons_of_transition (.closing cs waiting (emitted ++ out) seen')]
    simp
  · simpa using hpost

/-- A binary connective behind a formula of its stratum releases all that is left of the formula and
nothing below it. -/
theorem run_append_connective (c : BinaryConnective) {ss : List Symbol} {f : Formula}
    (h : Reads (Connective.binary c).precedence ss f) {waiting : List Waiting}
    (hfirm : Firm (Connective.binary c).precedence waiting) (emitted : Program)
    (seen : List String) (ts : List Symbol) :
    ∃ seen', run ⟨waiting, emitted, seen⟩ (ss ++ .connective (.binary c) :: ts) =
      run ⟨.connective (.binary c) :: waiting, emitted ++ f.postorder, seen'⟩ ts := by
  obtain ⟨out, cs, seen', hrun, hpost, hcs⟩ := h waiting emitted seen hfirm
  have hyields : ∀ d ∈ cs, (Connective.binary c).yieldsTo d = true := by
    intro d hd
    simpa [Connective.yieldsTo, Connective.associativity] using hcs d hd
  have hstep : Transition ⟨pending cs ++ waiting, emitted ++ out, seen'⟩ (.connective (.binary c))
      ⟨.connective (.binary c) :: waiting, emitted ++ out ++ released cs, seen'⟩ :=
    .connective _ cs waiting _ seen' (release_pending_append hyields (hfirm c (Nat.le_refl _)))
  refine ⟨seen', ?_⟩
  rw [run_append_of_ok hrun, run_cons_of_transition hstep, List.append_assoc, hpost]

/-- The right operand of a binary connective is read on top of it. -/
theorem binary (c : BinaryConnective) {ss ts : List Symbol} {f g : Formula}
    (hf : Reads (Connective.binary c).precedence ss f)
    (hg : Reads ((Connective.binary c).precedence + 1) ts g) :
    Reads (Connective.binary c).precedence (ss ++ .connective (.binary c) :: ts)
      (.binary c f g) := by
  intro waiting emitted seen hfirm
  obtain ⟨seen', hleft⟩ := hf.run_append_connective c hfirm emitted seen ts
  obtain ⟨out, cs, seen'', hright, hpost, hcs⟩ :=
    hg (.connective (.binary c) :: waiting) (emitted ++ f.postorder) seen'
      (firm_connective (Nat.lt_succ_self _) waiting)
  refine ⟨f.postorder ++ out, cs ++ [.binary c], seen'', ?_, ?_, ?_⟩
  · rw [hleft, hright]
    simp
  · calc
      f.postorder ++ out ++ released (cs ++ [.binary c]) =
          f.postorder ++ (out ++ released cs) ++ [.apply (.binary c)] := by simp
      _ = (Formula.binary c f g).postorder := by rw [hpost]; rfl
  · intro d hd
    rcases List.mem_append.1 hd with hd | hd
    · exact Nat.le_of_succ_le (hcs d hd)
    · obtain rfl := List.mem_singleton.1 hd
      exact Nat.le_refl _

/-- At the end of the tokens what is left of a formula is released. -/
theorem finish {level : Nat} {ss : List Symbol} {f : Formula} (h : Reads level ss f) :
    ∃ σ, run {} ss = (σ, none) ∧ σ.finish = .ok f.postorder := by
  obtain ⟨out, cs, seen, hrun, hpost, _⟩ := h [] [] [] (firm_nil level)
  refine ⟨_, hrun, ?_⟩
  rw [List.append_nil, List.nil_append, Compiler.finish, releaseAll_pending]
  exact congrArg Except.ok hpost

end Reads

end Compiler

namespace Alphabet

open Compiler

/-- The tokens of every stratum are read as the tree of their derivation. -/
theorem Derives.reads {a : Alphabet} (ha : a.IsPlain) {stratum : Stratum} {ts : List String}
    {f : Formula} (h : a.Derives stratum ts f) :
    Reads stratum.precedence (ts.map a.symbol) f := by
  have hnot : a.symbol "¬" = .connective .not := symbol_text ha .not
  have himplies : a.symbol "→" = .connective (.binary .implies) := symbol_text ha (.binary .implies)
  have hiff : a.symbol "↔" = .connective (.binary .iff) := symbol_text ha (.binary .iff)
  have hor : a.symbol "∨" = .connective (.binary .or) := symbol_text ha (.binary .or)
  have hand : a.symbol "∧" = .connective (.binary .and) := symbol_text ha (.binary .and)
  induction h with
  | ofDisjunction _ ih => exact ih.mono (by decide)
  | implies _ _ ihf ihg =>
      rw [List.map_append, List.map_cons, himplies]
      exact Reads.binary .implies ihf ihg
  | iff _ _ ihf ihg =>
      rw [List.map_append, List.map_cons, hiff]
      exact Reads.binary .iff ihf ihg
  | ofConjunction _ ih => exact ih.mono (by decide)
  | or _ _ ihf ihg =>
      rw [List.map_append, List.map_cons, hor]
      exact Reads.binary .or ihf ihg
  | ofLiteral _ ih => exact ih.mono (by decide)
  | and _ _ ihf ihg =>
      rw [List.map_append, List.map_cons, hand]
      exact Reads.binary .and ihf ihg
  | atom hname =>
      rw [List.map_singleton, symbol_of_mem hname]
      exact Reads.atom _ _
  | not _ ih =>
      rw [List.map_cons, hnot]
      exact ih.negation
  | group _ ih =>
      rw [List.map_cons, List.map_append, List.map_singleton, symbol_opening ha.opening_notMem,
        symbol_closing ha.closing_notMem]
      exact ih.group

theorem outcome_of_derives {a : Alphabet} (ha : a.IsPlain) {ts : List String} {f : Formula}
    (h : a.Derives .conditional ts f) : (a.compile (.tokens ts)).outcome = .ok f.postorder := by
  obtain ⟨σ, hrun, hfinish⟩ := (h.reads ha).finish
  unfold compile tokens
  rw [compileTokens_of_run hrun]
  exact hfinish

/-- A formula of the grammar compiles to the postorder program of its tree, and under every mapping
the program has the truth value of the tree. -/
theorem compile_of_derives {a : Alphabet} (ha : a.IsPlain) {ts : List String} {f : Formula}
    (h : a.Derives .conditional ts f) :
    (a.compile (.tokens ts)).outcome = .ok f.postorder ∧
      ∀ m : Mapping,
        (a.compile (.tokens ts)).program.evaluate m.valuation = f.holds m.valuation := by
  have hok := outcome_of_derives ha h
  refine ⟨hok, ?_⟩
  intro m
  rw [Compilation.program_of_outcome hok]
  exact f.evaluate_postorder m.valuation

/-- Conditionals group to the left, negations nest, and parentheses may be redundant. -/
theorem compile_of_derives_nested :
    builder.Derives .conditional
        ["(", "P", "→", "Q", ")", "→", "¬", "¬", "R", "∨", "(", "(", "P", ")", ")"]
        (.binary .implies (.binary .implies (.atom "P") (.atom "Q"))
          (.binary .or (.negation (.negation (.atom "R"))) (.atom "P"))) ∧
      (builder.compile (.tokens
        ["(", "P", "→", "Q", ")", "→", "¬", "¬", "R", "∨", "(", "(", "P", ")", ")"])).outcome =
        .ok [.push "P", .push "Q", .apply (.binary .implies), .push "R", .apply .not, .apply .not,
          .push "P", .apply (.binary .or), .apply (.binary .implies)] := by
  have hatom : ∀ name ∈ builder.atoms, builder.Derives .literal [name] (.atom name) :=
    fun name hname => .atom hname
  have hp := hatom "P" (by decide)
  have hq := hatom "Q" (by decide)
  have hr := hatom "R" (by decide)
  have hleft := (Derives.implies (.ofDisjunction (.ofConjunction (.ofLiteral hp)))
    (.ofConjunction (.ofLiteral hq))).group
  have hgroup := (Derives.ofDisjunction (.ofConjunction (.ofLiteral hp))).group
  have hright := Derives.or (.ofConjunction (.ofLiteral hr.not.not))
    (.ofLiteral (Derives.ofDisjunction (.ofConjunction (.ofLiteral hgroup))).group)
  have h := Derives.implies (.ofDisjunction (.ofConjunction (.ofLiteral hleft))) hright
  exact ⟨h, (compile_of_derives (by decide) h).1⟩

end Alphabet

end Sentential
