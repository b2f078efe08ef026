import Sentential.Proofs.Machine
import Sentential.Value
/-!
# Operands that are missing

A connective that finds too few values on the stack takes nothing in place of the others.  Every
connective but the biconditional reads that as false, and the biconditional does so if it finds no
operand at all.  Now let false values lie below the stack.  The operands that were missing are taken
from these, and whatever is computed above them stays the same.
-/

namespace Sentential

/-- All connectives but the biconditional read a missing operand as false. -/
theorem Connective.apply_binary_of_ne_iff {c : BinaryConnective} (hc : c ≠ .iff)
    (a b : Option Bool) :
    (binary c).apply a b = c.holds (a.getD false) (b.getD false) := by
  cases c with
  | iff => exact absurd rfl hc
  | and => rfl
  | or => rfl
  | implies => rfl

namespace Machine

/-- How many operands of an instruction are not on the stack. -/
def missing (stack : List Bool) (i : Instruction) : Nat := i.arity - stack.length

/-- How many operands are missing while a program runs. -/
def missingCount (v : Valuation) : List Bool → Program → Nat
  | _, [] => 0
  | stack, i :: p => missing stack i + missingCount v (step v stack i) p

variable {v : Valuation} {stack : List Bool} {i : Instruction} {p : Program} {k : Nat}

/-! ## Taking one value -/

theorem getD_head?_append_replicate (stack : List Bool) (k : Nat) :
    (stack ++ List.replicate k false).head?.getD false = stack.head?.getD false := by
  cases stack with
  | nil => cases k <;> rfl
  | cons b stack => rfl

theorem tail_append_replicate (stack : List Bool) (k : Nat) :
    (stack ++ List.replicate k false).tail =
      stack.tail ++ List.replicate (k - (1 - stack.length)) false := by
  cases stack with
  | nil => simp
  | cons b stack => simp

/-! ## One instruction -/

theorem step_not_append_replicate (v : Valuation) (stack : List Bool) (k : Nat) :
    step v (stack ++ List.replicate k false) (.apply .not) =
      step v stack (.apply .not) ++
        List.replicate (k - missing stack (.apply .not)) false := by
  have hvalue : ∀ stack' : List Bool,
      Connective.not.apply stack'.head? none = !stack'.head?.getD false := fun _ => rfl
  simp only [step, hvalue, getD_head?_append_replicate, tail_append_replicate, List.cons_append]
  rfl

theorem step_binary_append_replicate {c : BinaryConnective} (hc : c ≠ .iff) (v : Valuation)
    (stack : List Bool) (k : Nat) :
    step v (stack ++ List.replicate k false) (.apply (.binary c)) =
      step v stack (.apply (.binary c)) ++
        List.replicate (k - missing stack (.apply (.binary c))) false := by
  have htaken : k - (1 - stack.length) - (1 - stack.tail.length) =
      k - missing stack (.apply (.binary c)) := by
    simp only [missing, Instruction.arity, Connective.arity, List.length_tail]
    omega
  simp only [step, Connective.apply_binary_of_ne_iff hc, tail_append_replicate,
    getD_head?_append_replicate, htaken, List.cons_append]

/-- The biconditional tells a missing operand from a false one only if it finds the other one. -/
theorem step_iff_append_replicate (v : Valuation) (hone : stack.length ≠ 1)
    (hk : missing stack (.apply (.binary .iff)) ≤ k) :
    step v (stack ++ List.replicate k false) (.apply (.binary .iff)) =
      step v stack (.apply (.binary .iff)) ++
        List.replicate (k - missing stack (.apply (.binary .iff))) false := by
  rcases stack with _ | ⟨b, _ | ⟨b', rest⟩⟩
  · -- two missing operands are equal, and so are two false values from below
    obtain ⟨m, rfl⟩ := Nat.exists_eq_add_of_le' hk
    rfl
  · exact absurd rfl hone
  · have hnone : missing (b :: b' :: rest) (.apply (.binary .iff)) = 0 := by
      simp [missing, Instruction.arity, Connective.arity]
    rw [hnone]
    rfl

theorem step_append_replicate (v : Valuation)
    (hiff : i = .apply (.binary .iff) → stack.length ≠ 1 ∧ missing stack i ≤ k) :
    step v (stack ++ List.replicate k false) i =
      step v stack i ++ List.replicate (k - missing stack i) false := by
  cases i with
  | push name => simp [step, missing, Instruction.arity]
  | apply c =>
      cases c with
      | not => exact step_not_append_replicate v stack k
      | binary c =>
          by_cases hc : c = .iff
          · subst hc
            obtain ⟨hone, hk⟩ := hiff rfl
            exact step_iff_append_replicate v hone hk
          · exact step_binary_append_replicate hc v stack k

/-! ## Whole programs -/

/-- False values below the stack supply the operands that are missing, as long as there are enough
of them for every biconditional. -/
theorem run_append_replicate
    (hreached : ∀ j, p[j]? = some (.apply (.binary .iff)) →
      (run v stack (p.take j)).length ≠ 1)
    (hsupply : .apply (.binary .iff) ∈ p → missingCount v stack p ≤ k) :
    run v (stack ++ List.replicate k false) p =
      run v stack p ++ List.replicate (k - missingCount v stack p) false := by
  induction p generalizing stack k with
  | nil => rfl
  | cons i p ih =>
      rw [missingCount] at hsupply ⊢
      have hstep : step v (stack ++ List.replicate k false) i =
          step v stack i ++ List.replicate (k - missing stack i) false := by
        apply step_append_replicate
        rintro rfl
        have hk := hsupply (by simp)
        exact ⟨hreached 0 rfl, by omega⟩
      -- what the first instruction takes from below is missing in the supply of the others
      have hrest : .apply (.binary .iff) ∈ p →
          missingCount v (step v stack i) p ≤ k - missing stack i := by
        intro hmem
        have hk := hsupply (by simp [hmem])
        omega
      rw [run_cons, run_cons, hstep, ih (fun j hj => hreached (j + 1) hj) hrest, Nat.sub_sub]

theorem run_replicate_push (v : Valuation) (stack : List Bool) (name : String) (k : Nat) :
    run v stack (List.replicate k (.push name)) = List.replicate k (v name) ++ stack := by
  induction k with
  | zero => rfl
  | succ k ih =>
      rw [List.replicate_succ', run_concat, ih, List.replicate_succ]
      rfl

end Machine

namespace Program

theorem evaluate_replicate_push_append_of_eq_false {p : Program} {v : Valuation} {name : String}
    {k : Nat} (hname : v name = false)
    (hreached : ∀ j, p[j]? = some (.apply (.binary .iff)) →
      (Machine.run v [] (p.take j)).length ≠ 1)
    (hsupply : .apply (.binary .iff) ∈ p → Machine.missingCount v [] p ≤ k) :
    evaluate (List.replicate k (.push name) ++ p) v = p.evaluate v := by
  have hrun := Machine.run_append_replicate hreached hsupply
  rw [List.nil_append] at hrun
  rw [evaluate, evaluate, Machine.run_append, Machine.run_replicate_push, hname, List.append_nil,
    hrun, Machine.getD_head?_append_replicate]

/-- Missing operands behave like false.  Pushing a false atom at least as many times as operands are
missing does not change the value of a program, if no biconditional finds exactly one operand.  A
program without a biconditional does not even care how many times. -/
theorem evaluate_replicate_push_append (p : Program) (μ : Mapping) {name : String}
    (hname : ∀ x ∈ μ.lookup name, x.isTrue = false) :
    ((∀ j, p[j]? = some (.apply (.binary .iff)) →
        (Machine.run μ.valuation [] (p.take j)).length ≠ 1) →
      ∀ k, Machine.missingCount μ.valuation [] p ≤ k →
        evaluate (List.replicate k (.push name) ++ p) μ.valuation = p.evaluate μ.valuation) ∧
    (.apply (.binary .iff) ∉ p → ∀ k,
      evaluate (List.replicate k (.push name) ++ p) μ.valuation = p.evaluate μ.valuation) := by
  have hfalse : μ.valuation name = false := by
    rw [Mapping.valuation, Option.any_eq_false]
    intro x hx
    simp [hname x hx]
  constructor
  · intro hreached k hk
    exact evaluate_replicate_push_append_of_eq_false hfalse hreached fun _ => hk
  · intro hnone k
    refine evaluate_replicate_push_append_of_eq_false hfalse (fun j hj => ?_)
      fun hmem => absurd hmem hnone
    exact absurd (List.mem_of_getElem? hj) hnone

/-- The first biconditional finds no operand and the second finds both.  Without a biconditional the
atom is also pushed fewer times than operands are missing. -/
theorem evaluate_replicate_push_append_both :
    Machine.missingCount (Mapping.valuation [("P", .truth true)]) []
        [.apply (.binary .iff), .apply .not, .apply (.binary .or), .push "P",
          .apply (.binary .iff)] = 3 ∧
      evaluate (List.replicate 4 (.push "Q") ++ [.apply (.binary .iff), .apply .not,
          .apply (.binary .or), .push "P", .apply (.binary .iff)])
        (Mapping.valuation [("P", .truth true)]) = false ∧
      evaluate (List.replicate 1 (.push "Q") ++ [.apply (.binary .implies), .apply (.binary .and)])
        (Mapping.valuation [("P", .truth true)]) = false := by
  have hname : ∀ x ∈ List.lookup "Q" [("P", Value.truth true)], x.isTrue = false := by
    intro x hx
    cases hx
  refine ⟨rfl, ?_, ?_⟩
  · refine ((evaluate_replicate_push_append _ _ hname).1 ?_ 4 (by decide)).trans rfl
    intro j hj
    have hlt := (List.getElem?_eq_some_iff.1 hj).1
    revert hj
    revert j
    decide
  · exact ((evaluate_replicate_push_append _ _ hname).2 (by decide) 1).trans rfl

/-- A biconditional that finds one false operand is false, and true with another one below it. -/
example :
    evaluate [.push "Q", .apply (.binary .iff)] (fun _ => false) = false ∧
      evaluate (List.replicate 1 (.push "Q") ++ [.push "Q", .apply (.binary .iff)])
        (fun _ => false) = true := by
  decide

end Program

end Sentential
