import Sentential.Proofs.Compiler.Outcome
import Mathlib.Data.List.Chain
/-!
# The order of the waiting connectives

A connective is set down only on something to which it does not yield.  So whatever was read, well
formed or not, no connective on the waiting stack yields to the one directly beneath it.  Between
two parentheses that makes a staircase: binary connectives at the bottom, each binding tighter than
the one beneath it, and negations on top of them.  Taken off from the top, the connectives leave in
falling order of precedence.
-/

namespace Sentential

namespace Connective

/-- Only a binary connective yields, and then to whatever binds at least as tightly. -/
theorem yieldsTo_eq_false_iff {c d : Connective} :
    c.yieldsTo d = false ↔ c = .not ∨ d.precedence < c.precedence := by
  rcases c with _ | (_ | _ | _ | _) <;> rcases d with _ | (_ | _ | _ | _) <;> decide

theorem precedence_le_four (c : Connective) : c.precedence ≤ 4 := by
  rcases c with _ | (_ | _ | _ | _) <;> decide

theorem precedence_binary_mem (b : BinaryConnective) :
    1 ≤ (binary b).precedence ∧ (binary b).precedence ≤ 3 := by
  cases b <;> decide

/-- The lower connective binds less tightly than the upper one, unless that is a negation. -/
theorem yieldsTo_eq_false_trans {c d e : Connective} (hcd : c.yieldsTo d = false)
    (hde : d.yieldsTo e = false) : c.yieldsTo e = false := by
  rw [yieldsTo_eq_false_iff] at hcd hde ⊢
  rcases hcd with rfl | hcd
  · exact .inl rfl
  · rcases hde with rfl | hde
    · exact absurd hcd (Nat.not_lt.2 c.precedence_le_four)
    · exact .inr (Nat.lt_trans hde hcd)

theorem precedence_le_of_not_yieldsTo {c d : Connective} (h : c.yieldsTo d = false) :
    d.precedence ≤ c.precedence := by
  rcases yieldsTo_eq_false_iff.1 h with rfl | hlt
  · exact d.precedence_le_four
  · exact Nat.le_of_lt hlt

end Connective

namespace Compiler

/-! ## The stack as a whole -/

/-- Of two neighbours on the stack the upper one does not yield to the lower one. -/
def RestsOn (upper lower : Waiting) : Prop :=
  ∀ c d, upper = .connective c → lower = .connective d → c.yieldsTo d = false

/-- Nothing on the waiting stack yields to what is directly beneath it. -/
def IsSettled (waiting : List Waiting) : Prop := waiting.IsChain RestsOn

variable {σ σ' : Compiler} {s : Symbol} {ss : List Symbol} {waiting : List Waiting}

theorem restsOn_opening (lower : Waiting) : RestsOn .opening lower := by
  intro c d hc
  cases hc

/-- What is left after a release has nothing on top to which the incoming connective yields. -/
theorem restsOn_of_release {c : Connective} {p : Program} {kept : List Waiting}
    (h : release c waiting = (p, kept)) : ∀ top ∈ kept.head?, RestsOn (.connective c) top := by
  induction waiting generalizing p with
  | nil =>
      cases h
      simp
  | cons w rest ih =>
      cases w with
      | opening =>
          cases h
          intro top htop c' d _ hd
          rw [List.head?_cons, Option.mem_some_iff] at htop
          cases htop.trans hd
      | connective d =>
          cases hd : c.yieldsTo d with
          | true =>
              rw [release_connective_of_yields hd] at h
              exact ih (Prod.ext rfl (Prod.mk.inj h).2)
          | false =>
              rw [release_connective_of_not_yields hd] at h
              cases h
              intro top htop c' d' hc' hd'
              rw [List.head?_cons, Option.mem_some_iff] at htop
              cases hc'
              cases htop.trans hd'
              exact hd

/-- Every accepted token leaves the stack settled: only opening parentheses and connectives are put
on it, and a connective only after what it releases is gone. -/
theorem Transition.isSettled (h : Transition σ s σ') (hσ : IsSettled σ.waiting) :
    IsSettled σ'.waiting := by
  cases h with
  | atom => exact hσ
  | connective c cs kept emitted seen hrelease =>
      have hkept : IsSettled kept := List.IsChain.suffix hσ (List.suffix_append _ _)
      exact hkept.cons (restsOn_of_release hrelease)
  | opening waiting => exact List.IsChain.cons hσ fun lower _ => restsOn_opening lower
  | closing cs rest =>
      have hrest : rest <:+ pending cs ++ .opening :: rest :=
        (List.suffix_cons _ _).trans (List.suffix_append _ _)
      exact List.IsChain.suffix hσ hrest

theorem isSettled_of_run (h : run {} ss = (σ, none)) : IsSettled σ.waiting := by
  refine run_induction (motive := fun τ _ => IsSettled τ.waiting) ?_ ?_ h
  · exact List.isChain_nil
  · intro τ τ' _ s hτ htrans
    exact htrans.isSettled hτ

/-! ## The runs between parentheses -/

theorem pending_injective : Function.Injective pending :=
  List.map_injective_iff.2 fun _ _ h => Waiting.connective.inj h

theorem splitOn_pending (cs : List Connective) :
    (pending cs).splitOn .opening = [pending cs] :=
  List.splitOn_eq_singleton (opening_notMem_pending cs)

theorem splitOn_pending_append (cs : List Connective) (rest : List Waiting) :
    (pending cs ++ .opening :: rest).splitOn .opening = pending cs :: rest.splitOn .opening :=
  List.splitOn_append_cons_self_of_not_mem (opening_notMem_pending cs) rest

/-- A waiting stack is built of runs of connectives with opening parentheses between them. -/
theorem waiting_induction {motive : List Waiting → Prop} (last : ∀ cs, motive (pending cs))
    (above : ∀ cs rest, motive rest → motive (pending cs ++ .opening :: rest))
    (waiting : List Waiting) : motive waiting := by
  -- the connectives already passed are kept in front of those still to come
  suffices hall : ∀ cs, motive (pending cs ++ waiting) from hall []
  induction waiting with
  | nil =>
      intro cs
      rw [List.append_nil]
      exact last cs
  | cons w rest ih =>
      intro cs
      cases w with
      | opening => exact above cs rest (ih [])
      | connective c =>
          have hnext := ih (cs ++ [c])
          rwa [pending_append, List.append_assoc] at hnext

/-- In a run of connectives, top first, none yields to any that is further down. -/
def Stacked (cs : List Connective) : Prop := cs.Pairwise fun c d => c.yieldsTo d = false

theorem IsSettled.stacked {cs : List Connective} (h : IsSettled (pending cs)) : Stacked cs := by
  have htrans : Trans (fun c d : Connective => c.yieldsTo d = false)
      (fun c d => c.yieldsTo d = false) (fun c d => c.yieldsTo d = false) :=
    ⟨Connective.yieldsTo_eq_false_trans⟩
  rw [IsSettled, pending, List.isChain_map] at h
  exact (h.imp fun c d hcd => hcd c d rfl rfl).pairwise

theorem IsSettled.exists_stacked (h : IsSettled waiting) :
    ∀ part ∈ waiting.splitOn .opening, ∃ cs, part = pending cs ∧ Stacked cs := by
  induction waiting using waiting_induction with
  | last cs =>
      rw [splitOn_pending]
      intro part hpart
      exact ⟨cs, List.mem_singleton.1 hpart, h.stacked⟩
  | above cs rest ih =>
      have hcs : IsSettled (pending cs) := List.IsChain.left_of_append h
      have hrest : IsSettled rest := (List.IsChain.right_of_append h).tail
      rw [splitOn_pending_append]
      intro part hpart
      rcases List.mem_cons.1 hpart with rfl | hpart
      · exact ⟨cs, rfl, hcs.stacked⟩
      · exact ih hrest part hpart

/-! ## Staircases -/

/-- Read from the bottom, a run of connectives has binary ones first, each binding tighter than all
before it, and negations behind them. -/
structure IsStaircase (cs : List Connective) (steps : List BinaryConnective) (negations : Nat) :
    Prop where
  reverse_eq : cs.reverse = steps.map .binary ++ List.replicate negations .not
  climbs : steps.Pairwise fun b c =>
    (Connective.binary b).precedence < (Connective.binary c).precedence

theorem Stacked.exists_isStaircase {cs : List Connective} (h : Stacked cs) :
    ∃ steps negations, IsStaircase cs steps negations := by
  induction cs with
  | nil => exact ⟨[], 0, rfl, .nil⟩
  | cons c cs ih =>
      obtain ⟨hc, hcs⟩ := List.pairwise_cons.1 h
      obtain ⟨steps, n, hreverse, hclimbs⟩ := ih hcs
      cases c with
      | not =>
          refine ⟨steps, n + 1, ?_, hclimbs⟩
          rw [List.reverse_cons, hreverse, List.append_assoc, List.replicate_succ']
      | binary b =>
          have hlower : ∀ d ∈ cs.reverse, d.precedence < (Connective.binary b).precedence := by
            intro d hd
            have hyields := hc d (List.mem_reverse.1 hd)
            simpa [Connective.yieldsTo_eq_false_iff] using hyields
          -- a negation further down would bind tighter than the new step
          obtain rfl : n = 0 := by
            by_contra hn
            have hmem : Connective.not ∈ cs.reverse := by
              rw [hreverse]
              simp [hn]
            have hlt := hlower .not hmem
            have hle := (Connective.precedence_binary_mem b).2
            simp only [Connective.precedence] at hlt hle
            omega
          refine ⟨steps ++ [b], 0, ?_, ?_⟩
          · rw [List.reverse_cons, hreverse]
            simp
          · refine List.pairwise_append.2 ⟨hclimbs, List.pairwise_singleton _ _, ?_⟩
            intro step hstep c hc
            obtain rfl := List.mem_singleton.1 hc
            refine hlower (.binary step) ?_
            rw [hreverse]
            exact List.mem_append_left _ (List.mem_map_of_mem hstep)

/-- There are three precedences for the steps of a staircase. -/
theorem IsStaircase.length_le {cs : List Connective} {steps : List BinaryConnective} {n : Nat}
    (h : IsStaircase cs steps n) : steps.length ≤ 3 := by
  have hclimbs := h.climbs
  rcases steps with _ | ⟨b, _ | ⟨c, _ | ⟨d, _ | ⟨e, rest⟩⟩⟩⟩
  case cons.cons.cons.cons =>
    have hb := Connective.precedence_binary_mem b
    have he := Connective.precedence_binary_mem e
    simp only [List.pairwise_cons, List.mem_cons, forall_eq_or_imp] at hclimbs
    omega
  all_goals simp

/-- Taken off one after the other, the connectives bind less and less tightly. -/
def Descends (cs : List Connective) : Prop := cs.Pairwise fun c d => d.precedence ≤ c.precedence

theorem Stacked.descends {cs : List Connective} (h : Stacked cs) : Descends cs :=
  h.imp Connective.precedence_le_of_not_yieldsTo

/-! ## The stack between two tokens -/

/-- The waiting stack after some tokens.  Every run between two parentheses is a staircase of at
most three steps, the parentheses on the stack are those that are open, and what a closing
parenthesis or the end of the tokens releases is a run, in falling order of precedence. -/
structure IsTiered (a : Alphabet) (ts : List String) (σ : Compiler) : Prop where
  staircase : ∀ part ∈ σ.waiting.splitOn .opening, ∃ cs steps negations,
    part = pending cs ∧ IsStaircase cs steps negations ∧ steps.length ≤ 3 ∧ Descends cs
  openings : (σ.waiting.count .opening : Int) = ts.countP a.isOpening - ts.countP a.isClosing
  closing : ∀ σ', σ.step .closing = .ok σ' → ∃ cs,
    (σ.waiting.splitOn .opening).head? = some (pending cs) ∧
      σ'.emitted = σ.emitted ++ released cs ∧ Descends cs
  finish : ∀ p, σ.finish = .ok p → ∃ cs,
    σ.waiting.splitOn .opening = [pending cs] ∧ p = σ.emitted ++ released cs ∧ Descends cs

/-- The waiting stack is tiered after every part of a token list that is read without a failure. -/
theorem isTiered_of_run (a : Alphabet) (ts : List String) (k : Nat) {σ : Compiler}
    (h : run {} ((ts.take k).map a.symbol) = (σ, none)) : IsTiered a (ts.take k) σ := by
  have hparts := (isSettled_of_run h).exists_stacked
  constructor
  case staircase =>
    intro part hpart
    obtain ⟨cs, rfl, hcs⟩ := hparts part hpart
    obtain ⟨steps, n, hsteps⟩ := hcs.exists_isStaircase
    exact ⟨cs, steps, n, rfl, hsteps, hsteps.length_le, hcs.descends⟩
  case openings =>
    have hcount := count_opening_of_run h
    omega
  case closing =>
    intro σ' hstep
    cases Transition.of_step hstep with
    | closing cs rest emitted seen =>
        rw [splitOn_pending_append] at hparts ⊢
        obtain ⟨cs', hcs', hstacked⟩ := hparts (pending cs) (by simp)
        obtain rfl : cs = cs' := pending_injective hcs'
        exact ⟨cs, rfl, rfl, hstacked.descends⟩
  case finish =>
    intro p hp
    obtain ⟨cs, hwaiting, rfl⟩ := exists_pending_of_finish hp
    rw [hwaiting, splitOn_pending] at hparts ⊢
    obtain ⟨cs', hcs', hstacked⟩ := hparts (pending cs) (by simp)
    obtain rfl : cs = cs' := pending_injective hcs'
    exact ⟨cs, rfl, rfl, hstacked.descends⟩

/-- Connectives without operands are set down like others: two staircases of two steps, and two
negations on the upper one, just before the closing parenthesis is read. -/
theorem isTiered_of_run_malformed :
    let ts := ["P", "→", "∨", "(", "¬", "R", "∨", "S", "∧", "¬", "¬", ")", "x"]
    let waiting : List Waiting :=
      pending [.not, .not, .binary .and, .binary .or] ++
        .opening :: pending [.binary .or, .binary .implies]
    ∃ σ, run {} ((ts.take 11).map Alphabet.builder.symbol) = (σ, none) ∧ σ.waiting = waiting ∧
      IsTiered .builder (ts.take 11) σ := by
  intro ts waiting
  have hrun : run {} ((ts.take 11).map Alphabet.builder.symbol) =
      (⟨waiting, [.push "P", .push "R", .apply .not, .push "S"], ["P", "R", "S"]⟩, none) := rfl
  exact ⟨_, hrun, rfl, isTiered_of_run .builder ts 11 hrun⟩

end Compiler

end Sentential
