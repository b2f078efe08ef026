import Sentential.Formula
/-!
# What a program reads

The names that a program pushes are all that its value depends on.  The postorder program of a
formula computes the formula's truth value.
-/

namespace Sentential

/-- The name that an instruction pushes. -/
def Instruction.pushed? : Instruction → Option String
  | .push name => some name
  | .apply _ => none

namespace Program

/-- The names that a program pushes, in order and with repetitions. -/
def pushed (p : Program) : List String := p.filterMap Instruction.pushed?

@[simp] theorem pushed_nil : pushed [] = [] := rfl

@[simp] theorem pushed_push_cons (name : String) (p : Program) :
    pushed (.push name :: p) = name :: pushed p := rfl

@[simp] theorem pushed_apply_cons (c : Connective) (p : Program) :
    pushed (.apply c :: p) = pushed p := rfl

@[simp] theorem pushed_append (p q : Program) : pushed (p ++ q) = pushed p ++ pushed q := by
  simp [pushed]

theorem count_push (name : String) (p : Program) :
    p.count (.push name) = p.pushed.count name := by
  induction p with
  | nil => rfl
  | cons i p ih =>
      cases i with
      | push n => simp [List.count_cons, ih]
      | apply c => simp [ih]

theorem run_congr {p : Program} {v w : Valuation} (h : ∀ name ∈ p.pushed, v name = w name)
    (stack : List Bool) : Machine.run v stack p = Machine.run w stack p := by
  induction p generalizing stack with
  | nil => rfl
  | cons i p ih =>
      rw [Machine.run_cons, Machine.run_cons]
      cases i with
      | push name =>
          have hname : v name = w name := h name (by simp)
          have hstep : Machine.step v stack (.push name) = Machine.step w stack (.push name) := by
            simp only [Machine.step, hname]
          rw [hstep]
          exact ih (fun n hn => h n (by simp [hn])) _
      | apply c =>
          have hstep : Machine.step v stack (.apply c) = Machine.step w stack (.apply c) := by
            cases c <;> rfl
          rw [hstep]
          exact ih (fun n hn => h n (by simpa using hn)) _

/-- The value of a program depends on the names that it pushes and on no other. -/
theorem evaluate_congr {p : Program} {v w : Valuation}
    (h : ∀ name ∈ p.pushed, v name = w name) : p.evaluate v = p.evaluate w := by
  rw [evaluate, evaluate, run_congr h]

end Program

theorem Formula.evaluate_postorder (f : Formula) (v : Valuation) :
    f.postorder.evaluate v = f.holds v := by
  rw [Program.evaluate, f.run_postorder]
  rfl

end Sentential
