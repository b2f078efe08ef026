import Sentential.Region.Basic
import Sentential.Region.Labels
import Sentential.Text.TruthLetter
/-!
# Shading the diagram

A shading says of each region whether it is shaded.  It can be cleared, reduced to one region, or
reversed in one region, where the region is given by its name.
-/

namespace Sentential

/-- Which regions are shaded. -/
structure Shading where
  leftOnly : Bool := false
  rightOnly : Bool := false
  both : Bool := false
  deriving DecidableEq

namespace Shading

/-- Nothing is shaded. -/
def cleared : Shading := {}

def get (s : Shading) : Region → Bool
  | .leftOnly => s.leftOnly
  | .rightOnly => s.rightOnly
  | .both => s.both

def set (s : Shading) (value : Bool) : Region → Shading
  | .leftOnly => { s with leftOnly := value }
  | .rightOnly => { s with rightOnly := value }
  | .both => { s with both := value }

@[simp] theorem get_cleared (r : Region) : cleared.get r = false := by cases r <;> rfl

@[simp] theorem get_set_self (s : Shading) (value : Bool) (r : Region) :
    (s.set value r).get r = value := by
  cases r <;> rfl

theorem get_set_of_ne (s : Shading) (value : Bool) {q r : Region} (h : q ≠ r) :
    (s.set value r).get q = s.get q := by
  cases q <;> cases r <;> simp_all [get, set]

/-- Exactly one region is shaded. -/
def only (r : Region) : Shading := cleared.set true r

/-- The shading of one region is reversed. -/
def toggled (s : Shading) (r : Region) : Shading := s.set (!s.get r) r

/-- An edit of the current shading, with the region given by its name. -/
inductive Edit where
  | cleared
  | only (name : String)
  | toggled (name : String)

/-- The shading after an edit. -/
def edited (s : Shading) : Edit → Except UnknownRegion Shading
  | .cleared => .ok Shading.cleared
  | .only name => do return Shading.only (← Region.ofName name)
  | .toggled name => do return s.toggled (← Region.ofName name)

/-- The shading after an edit, where an edit of an unknown region changes nothing. -/
def after (s : Shading) (e : Edit) : Shading :=
  match s.edited e with
  | .ok s' => s'
  | .error _ => s

/-- One line that says of each region whether it is shaded. -/
def summary (s : Shading) (labels : Labels) : Except LabelError String := do
  let (left, right) ← labels.pair
  return left ++ "-only:" ++ Text.truthLetter s.leftOnly ++ "  " ++
    right ++ "-only:" ++ Text.truthLetter s.rightOnly ++ "  " ++
    left ++ "∧" ++ right ++ ":" ++ Text.truthLetter s.both

end Shading

end Sentential
