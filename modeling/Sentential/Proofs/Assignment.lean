import Sentential.Assignment
import Sentential.Value
import Mathlib.Data.Nat.Bitwise
/-!
# Masks and assignments

A mask gives the last of its names the lowest bit.  If no name is listed twice, the values that the
masks below `2 ^ n` give to `n` names are all lists of `n` truth values, each from one mask.
-/

namespace Sentential

namespace Assignment

theorem lookup_entry (name other : String) (value : Bool) (a : Assignment) :
    List.lookup other ((name, value) :: a) =
      if other = name then some value else a.lookup other := by
  by_cases h : other = name
  · subst h
    rw [List.lookup_cons_self, if_pos rfl]
  · have hbeq : (other == name) = false := by simpa using h
    rw [List.lookup_cons, hbeq, if_neg h]

theorem lookup_set (a : Assignment) (name other : String) (value : Bool) :
    (a.set name value).lookup other = if other = name then some value else a.lookup other := by
  induction a with
  | nil => exact lookup_entry name other value []
  | cons entry a ih =>
      obtain ⟨n, b⟩ := entry
      rw [set]
      by_cases hn : n = name
      · subst hn
        rw [if_pos rfl, lookup_entry, lookup_entry]
        by_cases h : other = n
        · rw [if_pos h, if_pos h]
        · rw [if_neg h, if_neg h, if_neg h]
      · rw [if_neg hn, lookup_entry, lookup_entry, ih]
        by_cases hother : other = n
        · rw [if_pos hother, if_pos hother, if_neg (hother ▸ hn)]
        · rw [if_neg hother, if_neg hother]

theorem lookup_extend_of_notMem {names : List String} {name : String} (h : name ∉ names)
    (mask : Int) (a : Assignment) : (extend mask a names).lookup name = a.lookup name := by
  induction names generalizing a with
  | nil => rfl
  | cons n names ih =>
      have hne : name ≠ n := fun hn => h (by simp [hn])
      rw [extend, ih (fun hmem => h (by simp [hmem])), lookup_set, if_neg hne]

/-- A name takes the bit of its last place, counted from the end. -/
theorem lookup_extend_append_cons {before after : List String} {name : String}
    (h : name ∉ after) (mask : Int) (a : Assignment) :
    (extend mask a (before ++ name :: after)).lookup name = some (bit mask after.length) := by
  induction before generalizing a with
  | nil => rw [List.nil_append, extend, lookup_extend_of_notMem h, lookup_set, if_pos rfl]
  | cons n before ih => rw [List.cons_append, extend, ih]

theorem lookup_ofMask_getElem {names : List String} {i : Nat} (hi : i < names.length)
    (h : names[i] ∉ names.drop (i + 1)) (mask : Int) :
    (ofMask names mask).lookup names[i] = some (bit mask (names.length - 1 - i)) := by
  have hsplit : names = names.take i ++ names[i] :: names.drop (i + 1) := by
    rw [List.getElem_cons_drop, List.take_append_drop]
  have hlast : (extend mask [] (names.take i ++ names[i] :: names.drop (i + 1))).lookup names[i] =
      some (bit mask (names.drop (i + 1)).length) :=
    lookup_extend_append_cons h mask []
  rw [← hsplit, List.length_drop] at hlast
  rw [ofMask, hlast, show names.length - (i + 1) = names.length - 1 - i by omega]

theorem bit_natCast (m place : Nat) : bit (m : Int) place = m.testBit place := by
  have hmod : ((m : Int) >>> place) % 2 = ((m / 2 ^ place % 2 : Nat) : Int) := by
    rw [← Int.natCast_shiftRight, Nat.shiftRight_eq_div_pow]
    rfl
  rw [bit, hmod, Nat.testBit_eq_decide_div_mod_eq]
  have hlt : m / 2 ^ place % 2 < 2 := Nat.mod_lt _ (by omega)
  generalize m / 2 ^ place % 2 = r at hlt
  rw [Bool.eq_iff_iff, beq_iff_eq, decide_eq_true_iff]
  omega

/-! ## The cells of a mask -/

/-- The lowest `n` bits of a mask, the most significant one first. -/
def cells (n m : Nat) : List Bool := (List.range n).map fun i => m.testBit (n - 1 - i)

@[simp] theorem length_cells (n m : Nat) : (cells n m).length = n := by
  simp [cells]

theorem getElem?_cells {n i : Nat} (hi : i < n) (m : Nat) :
    (cells n m)[i]? = some (m.testBit (n - 1 - i)) := by
  simp [cells, hi]

theorem map_valuation_ofMask {names : List String} (h : names.Nodup) (m : Nat) :
    names.map (ofMask names (m : Int)).valuation = cells names.length m := by
  apply List.ext_getElem?
  intro i
  by_cases hi : i < names.length
  · have hnotMem : names[i] ∉ names.drop (i + 1) := by
      have hsplit := List.take_append_drop i names
      rw [List.drop_eq_getElem_cons hi] at hsplit
      rw [← hsplit] at h
      exact (List.nodup_cons.1 (List.nodup_append.1 h).2.1).1
    have hlookup := lookup_ofMask_getElem hi hnotMem m
    rw [bit_natCast] at hlookup
    rw [getElem?_cells hi, List.getElem?_map, List.getElem?_eq_getElem hi, Option.map_some,
      valuation, hlookup]
    rfl
  · simp [cells, hi]

theorem cells_injective {n m k : Nat} (hm : m < 2 ^ n) (hk : k < 2 ^ n)
    (h : cells n m = cells n k) : m = k := by
  apply Nat.eq_of_testBit_eq
  intro i
  by_cases hi : i < n
  · have hget := congrArg (fun bs => bs[n - 1 - i]?) h
    simp only [getElem?_cells (show n - 1 - i < n by omega), Option.some.injEq] at hget
    rwa [show n - 1 - (n - 1 - i) = i by omega] at hget
  · have hle : 2 ^ n ≤ 2 ^ i := Nat.pow_le_pow_right (by omega) (by omega)
    rw [Nat.testBit_lt_two_pow (by omega), Nat.testBit_lt_two_pow (by omega)]

theorem exists_cells_eq (bs : List Bool) : ∃ m < 2 ^ bs.length, cells bs.length m = bs := by
  refine ⟨Nat.ofBits fun i : Fin bs.length => bs[bs.length - 1 - i.val],
    Nat.ofBits_lt_two_pow _, ?_⟩
  apply List.ext_getElem?
  intro i
  by_cases hi : i < bs.length
  · rw [getElem?_cells hi, Nat.testBit_ofBits_lt _ _ (by omega)]
    simp [show bs.length - 1 - (bs.length - 1 - i) = i by omega, hi]
  · simp [cells, hi]

end Assignment

/-- An assignment as a mapping to plain values. -/
def Mapping.ofAssignment (a : Assignment) : Mapping := a.map fun entry => (entry.1, .truth entry.2)

theorem Mapping.valuation_ofAssignment (a : Assignment) :
    (ofAssignment a).valuation = a.valuation := by
  funext name
  rw [Mapping.valuation, Assignment.valuation]
  induction a with
  | nil => rfl
  | cons entry a ih =>
      rw [ofAssignment, List.map_cons, List.lookup_cons, List.lookup_cons]
      cases name == entry.1 with
      | true => rfl
      | false => exact ih

end Sentential
