import Sentential.Machine
/-!
# Assignments

An assignment gives truth values to finitely many atoms, in a definite order.  The assignments
of `n` names are numbered by masks of `n` bits: the first name takes the most significant bit, so
mask `0` makes every atom false and mask `2 ^ n - 1` makes every atom true.

A name that is listed twice keeps its first place and takes its last value.
-/

namespace Sentential

abbrev Assignment := List (String × Bool)

namespace Assignment

/-- Gives a name a value, in the place of its old one or at the end. -/
def set (name : String) (value : Bool) : Assignment → Assignment
  | [] => [(name, value)]
  | (n, b) :: rest => if n = name then (n, value) :: rest else (n, b) :: set name value rest

/-- The bit of a mask at a place counted from the least significant one.  A negative mask is read
in two's complement. -/
def bit (mask : Int) (place : Nat) : Bool := (mask >>> place) % 2 == 1

/-- Extends an assignment by names whose values are the lowest bits of a mask. -/
def extend (mask : Int) : Assignment → List String → Assignment
  | a, [] => a
  | a, name :: rest => extend mask (a.set name (bit mask rest.length)) rest

/-- The assignment that a mask stands for. -/
def ofMask (names : List String) (mask : Int) : Assignment := extend mask [] names

/-- The assignments of all masks, in ascending order. -/
def all (names : List String) : List Assignment :=
  (List.range (1 <<< names.length)).map fun (mask : Nat) => ofMask names mask

/-- An atom without a value is false. -/
def valuation (a : Assignment) : Valuation := fun name => (a.lookup name).getD false

end Assignment

end Sentential
