import Sentential.Proofs.Assignment
import Sentential.Proofs.Compiler.Run
import Mathlib.Data.Int.Bitwise
import Mathlib.Data.List.Dedup
import Mathlib.Tactic.Ring
/-!
# What the assignments of all masks are

A mask is read in two's complement, and only its lowest `n` bits matter to `n` names.  A name that
is listed twice takes the later one of its two bits, so the earlier bit is free, and every
assignment of the distinct names is met once for each choice of the free bits.  Without repetitions
the values of an assignment are the binary digits of its mask.
-/

namespace Sentential

namespace Assignment

/-- A list of truth values read as a binary number, the first one as the most significant digit. -/
def binaryValue : List Bool → Nat
  | [] => 0
  | b :: bs => b.toNat * 2 ^ bs.length + binaryValue bs

/-- What decoding makes of a mask: the names in order of their first places, each with the bit for
its last place. -/
structure DecodesMasks (names : List String) (decode : Int → Assignment) : Prop where
  keys : ∀ mask, (decode mask).map Prod.fst = names.eraseDups
  value : ∀ mask j (hj : j < names.length), names[j] ∉ names.drop (j + 1) →
    (decode mask).lookup names[j] = some (mask.testBit (names.length - 1 - j))
  periodic : ∀ mask, decode mask = decode (mask % 2 ^ names.length)
  binary : names.Nodup → ∀ mask,
    (binaryValue ((decode mask).map Prod.snd) : Int) = mask % 2 ^ names.length

/-- A list of all assignments of some names.  Each assignment of the distinct names is in it as
often as any other one. -/
structure Enumerates (names : List String) (as : List Assignment) : Prop where
  length : as.length = 2 ^ names.length
  count : ∀ v : Valuation, as.count (names.eraseDups.map fun name => (name, v name)) =
    2 ^ (names.length - names.eraseDups.length)
  binary : names.Nodup →
    (as.map fun a => binaryValue (a.map Prod.snd)) = List.range (2 ^ names.length)
  increasing : names.Nodup → (as.map fun a => a.map Prod.snd).Pairwise (· < ·)

variable {names : List String} {name : String} {mask mask' : Int} {a : Assignment}

/-! ## The bits of a mask -/

theorem bit_eq_testBit (mask : Int) (place : Nat) : bit mask place = mask.testBit place := by
  cases mask with
  | ofNat m => exact bit_natCast m place
  | negSucc m =>
      have hflip : bit (Int.negSucc m) place = !bit (m : Int) place := by
        rw [bit, bit, Int.negSucc_shiftRight, ← Int.natCast_shiftRight, Int.negSucc_eq]
        generalize m >>> place = k
        rw [Bool.eq_iff_iff, Bool.not_eq_true', beq_iff_eq, beq_eq_false_iff_ne]
        omega
      rw [hflip, bit_natCast]
      rfl

/-- What lies above the lowest `n` bits changes none of them. -/
theorem bit_emod {n place : Nat} (h : place < n) (mask : Int) :
    bit (mask % 2 ^ n) place = bit mask place := by
  obtain ⟨k, rfl⟩ := Nat.exists_eq_add_of_lt h
  have hne : (2 : Int) ^ place ≠ 0 := pow_ne_zero place (by decide)
  have hhigh : mask / 2 ^ place =
      mask % 2 ^ (place + k + 1) / 2 ^ place + 2 * (2 ^ k * (mask / 2 ^ (place + k + 1))) := by
    rw [← Int.add_mul_ediv_left _ _ hne]
    congr 1
    have hmask := Int.emod_add_mul_ediv mask (2 ^ (place + k + 1))
    generalize mask / 2 ^ (place + k + 1) = q at hmask
    generalize mask % 2 ^ (place + k + 1) = r at hmask
    rw [← hmask]
    ring
  have hdiv : ∀ m : Int, m >>> place = m / 2 ^ place := fun m => by
    rw [Int.shiftRight_eq_div_pow, Nat.cast_pow, Nat.cast_ofNat]
  rw [bit, bit, hdiv, hdiv, hhigh, Int.add_mul_emod_self_left]

theorem extend_congr (h : ∀ place < names.length, bit mask place = bit mask' place)
    (a : Assignment) : extend mask a names = extend mask' a names := by
  induction names generalizing a with
  | nil => rfl
  | cons name names ih =>
      rw [extend, extend, h names.length (by simp)]
      exact ih (fun place hplace => h place (by simp; omega)) _

theorem ofMask_emod (names : List String) (mask : Int) :
    ofMask names mask = ofMask names (mask % 2 ^ names.length) :=
  extend_congr (fun _ hplace => (bit_emod hplace mask).symm) []

/-! ## The names of an assignment -/

theorem note_cons (key : String) (keys : List String) (name : String) :
    Compiler.note (key :: keys) name =
      if key = name then key :: keys else key :: Compiler.note keys name := by
  unfold Compiler.note
  by_cases hkey : key = name
  · simp [hkey]
  · by_cases hmem : name ∈ keys
    · simp [hkey, hmem]
    · simp [hkey, hmem, Ne.symm hkey]

theorem map_fst_set (a : Assignment) (name : String) (value : Bool) :
    (a.set name value).map Prod.fst = Compiler.note (a.map Prod.fst) name := by
  induction a with
  | nil => rfl
  | cons entry a ih =>
      obtain ⟨key, b⟩ := entry
      rw [set, List.map_cons, note_cons]
      by_cases hkey : key = name
      · rw [if_pos hkey, if_pos hkey, List.map_cons]
      · rw [if_neg hkey, if_neg hkey, List.map_cons, ih]

theorem map_fst_ofMask (names : List String) (mask : Int) :
    (ofMask names mask).map Prod.fst = names.eraseDups := by
  have hextend : ∀ a : Assignment,
      (extend mask a names).map Prod.fst = names.foldl Compiler.note (a.map Prod.fst) := by
    induction names with
    | nil => exact fun _ => rfl
    | cons name names ih =>
        intro a
        rw [extend, ih, map_fst_set, List.foldl_cons]
  rw [ofMask, hextend, List.map_nil, Compiler.foldl_note]

theorem valuation_cons (name : String) (value : Bool) (a : Assignment) (other : String) :
    valuation ((name, value) :: a) other = if other = name then value else a.valuation other := by
  rw [valuation, lookup_entry]
  by_cases h : other = name
  · rw [if_pos h, if_pos h, Option.getD_some]
  · rw [if_neg h, if_neg h, valuation]

theorem eq_map_valuation (h : (a.map Prod.fst).Nodup) :
    a = (a.map Prod.fst).map fun name => (name, a.valuation name) := by
  induction a with
  | nil => rfl
  | cons entry a ih =>
      obtain ⟨key, b⟩ := entry
      rw [List.map_cons, List.nodup_cons] at h
      rw [List.map_cons, List.map_cons, valuation_cons, if_pos rfl]
      congr 1
      conv_lhs => rw [ih h.2]
      apply List.map_congr_left
      intro name hname
      have hne : name ≠ key := by
        rintro rfl
        exact h.1 hname
      rw [valuation_cons, if_neg hne]

theorem map_snd_eq_map_valuation (h : (a.map Prod.fst).Nodup) :
    a.map Prod.snd = (a.map Prod.fst).map a.valuation := by
  conv_lhs => rw [eq_map_valuation h, List.map_map]
  rfl

theorem lookup_extend_of_mem (h : name ∈ names) (mask : Int) (a a' : Assignment) :
    (extend mask a names).lookup name = (extend mask a' names).lookup name := by
  induction names generalizing a a' with
  | nil => cases h
  | cons first names ih =>
      rw [extend, extend]
      by_cases hmem : name ∈ names
      · exact ih hmem _ _
      · obtain rfl : name = first := (List.mem_cons.1 h).resolve_right hmem
        rw [lookup_extend_of_notMem hmem, lookup_extend_of_notMem hmem, lookup_set, lookup_set,
          if_pos rfl, if_pos rfl]

theorem valuation_ofMask_cons (name : String) (names : List String) (mask : Int) (other : String) :
    (ofMask (name :: names) mask).valuation other =
      if other ∈ names then (ofMask names mask).valuation other
      else if other = name then bit mask names.length else false := by
  rw [valuation, valuation, ofMask, ofMask, extend]
  by_cases hmem : other ∈ names
  · rw [if_pos hmem, lookup_extend_of_mem hmem mask _ []]
  · rw [if_neg hmem, lookup_extend_of_notMem hmem, lookup_set]
    by_cases hname : other = name
    · rw [if_pos hname, if_pos hname, Option.getD_some]
    · rw [if_neg hname, if_neg hname]
      rfl

/-! ## How often an assignment is met -/

/-- The mask gives the names the values that a valuation gives them. -/
def Agrees (v : Valuation) (names : List String) (mask : Int) : Prop :=
  ∀ name ∈ names, (ofMask names mask).valuation name = v name

instance (v : Valuation) (names : List String) (mask : Int) : Decidable (Agrees v names mask) :=
  List.decidableBAll _ names

variable {v : Valuation}

theorem ofMask_eq_map_iff :
    ofMask names mask = (names.eraseDups.map fun name => (name, v name)) ↔ Agrees v names mask := by
  have hnodup : ((ofMask names mask).map Prod.fst).Nodup := by
    rw [map_fst_ofMask]
    exact Compiler.nodup_eraseDups names
  rw [eq_map_valuation hnodup, map_fst_ofMask, List.map_inj_left]
  simp [Agrees]

/-- A name that is listed again leaves its bit free. -/
theorem agrees_cons_iff :
    Agrees v (name :: names) mask ↔
      Agrees v names mask ∧ (name ∉ names → bit mask names.length = v name) := by
  unfold Agrees
  simp only [valuation_ofMask_cons]
  constructor
  · intro h
    refine ⟨fun other hother => ?_, fun hname => ?_⟩
    · have hvalue := h other (by simp [hother])
      rwa [if_pos hother] at hvalue
    · have hvalue := h name (by simp)
      rwa [if_neg hname, if_pos rfl] at hvalue
  · rintro ⟨hnames, hfirst⟩ other hother
    by_cases hmem : other ∈ names
    · rw [if_pos hmem, hnames other hmem]
    · obtain rfl : other = name := (List.mem_cons.1 hother).resolve_right hmem
      rw [if_neg hmem, if_pos rfl, hfirst hmem]

theorem length_eraseDups (names : List String) : names.eraseDups.length = names.dedup.length := by
  apply List.Perm.length_eq
  rw [List.perm_ext_iff_of_nodup (Compiler.nodup_eraseDups names) names.nodup_dedup]
  simp

theorem length_eraseDups_le (names : List String) : names.eraseDups.length ≤ names.length :=
  length_eraseDups names ▸ (List.dedup_sublist names).length_le

/-- Of the masks that give the later names their values, those with one value of the first bit give
the first name its value too, or all do if the name is listed again. -/
theorem countP_agrees_cons (v : Valuation) (name : String) (names : List String) {b : Bool}
    {f : Nat → Nat} (hbit : ∀ m < 2 ^ names.length, (f m).testBit names.length = b)
    (hmod : ∀ m, (f m : Int) % 2 ^ names.length = m % 2 ^ names.length) :
    ((List.range (2 ^ names.length)).map f).countP
        (fun m : Nat => decide (Agrees v (name :: names) m)) =
      if name ∈ names ∨ b = v name then
        (List.range (2 ^ names.length)).countP fun m : Nat => decide (Agrees v names m)
      else 0 := by
  have hrest : ∀ m, Agrees v names (f m) ↔ Agrees v names m := by
    intro m
    rw [Agrees, Agrees, ofMask_emod, hmod, ← ofMask_emod]
  have hagrees : ∀ m ∈ List.range (2 ^ names.length),
      Agrees v (name :: names) (f m) ↔ Agrees v names m ∧ (name ∈ names ∨ b = v name) := by
    intro m hm
    rw [agrees_cons_iff, hrest, bit_natCast, hbit m (List.mem_range.1 hm), or_iff_not_imp_left]
  rw [List.countP_map]
  split
  case isTrue hfirst =>
    apply List.countP_congr
    intro m hm
    simp [hagrees m hm, hfirst]
  case isFalse hfirst =>
    rw [List.countP_eq_zero]
    intro m hm
    simp [hagrees m hm, hfirst]

theorem countP_agrees (v : Valuation) (names : List String) :
    (List.range (2 ^ names.length)).countP (fun m : Nat => decide (Agrees v names m)) =
      2 ^ (names.length - names.eraseDups.length) := by
  induction names with
  | nil => rfl
  | cons name names ih =>
      -- the first name has its bit in the upper half of the masks only
      have hlow := countP_agrees_cons v name names (f := id) (b := false)
        (fun m hm => Nat.testBit_lt_two_pow hm) fun _ => rfl
      have hhigh := countP_agrees_cons v name names (f := (2 ^ names.length + ·)) (b := true)
        (fun m hm => by rw [Nat.testBit_two_pow_add_eq, Nat.testBit_lt_two_pow hm, Bool.not_false])
        (fun m => by push_cast; rw [Int.add_emod_left])
      have hle := length_eraseDups_le names
      rw [List.map_id, ih] at hlow
      rw [ih] at hhigh
      rw [length_eraseDups] at hle ⊢
      rw [length_eraseDups] at hlow hhigh
      rw [List.length_cons, pow_succ, Nat.mul_two, List.range_add, List.countP_append, hlow, hhigh]
      by_cases hmem : name ∈ names
      · rw [if_pos (.inl hmem), if_pos (.inl hmem), List.dedup_cons_of_mem hmem,
          Nat.sub_add_comm hle, pow_succ, Nat.mul_two]
      · rw [List.dedup_cons_of_notMem hmem, List.length_cons, Nat.add_sub_add_right]
        cases v name <;> simp [hmem]

/-! ## The values of an assignment as digits -/

theorem cells_succ (n m : Nat) : cells (n + 1) m = m.testBit n :: cells n m := by
  rw [cells, cells, List.range_succ_eq_map, List.map_cons, List.map_map]
  congr 1
  apply List.map_congr_left
  intro i _
  show m.testBit (n + 1 - 1 - (i + 1)) = m.testBit (n - 1 - i)
  rw [show n + 1 - 1 - (i + 1) = n - 1 - i by omega]

theorem binaryValue_cells (n m : Nat) : binaryValue (cells n m) = m % 2 ^ n := by
  induction n with
  | zero => exact (Nat.mod_one m).symm
  | succ n ih =>
      rw [cells_succ, binaryValue, length_cells, ih, Nat.toNat_testBit, Nat.mod_pow_succ]
      ring

theorem binaryValue_lt (bs : List Bool) : binaryValue bs < 2 ^ bs.length := by
  induction bs with
  | nil => decide
  | cons b bs ih =>
      rw [binaryValue, List.length_cons, pow_succ]
      cases b <;> simp <;> omega

/-- Among lists of one length the order of the numbers is that of the lists. -/
theorem lt_of_binaryValue_lt {bs cs : List Bool} (hlength : bs.length = cs.length)
    (h : binaryValue bs < binaryValue cs) : bs < cs := by
  induction bs generalizing cs with
  | nil =>
      obtain rfl := List.length_eq_zero_iff.1 hlength.symm
      exact absurd h (Nat.lt_irrefl _)
  | cons b bs ih =>
      cases cs with
      | nil => cases hlength
      | cons c cs =>
          rw [List.length_cons, List.length_cons, Nat.add_right_cancel_iff] at hlength
          have hcs := binaryValue_lt cs
          rw [binaryValue, binaryValue, hlength] at h
          rw [List.cons_lt_cons_iff]
          cases b <;> cases c
          · exact .inr ⟨rfl, ih hlength (by simpa using h)⟩
          · exact .inl (by decide)
          · simp at h
            omega
          · exact .inr ⟨rfl, ih hlength (by simpa using h)⟩

theorem eraseDups_of_nodup (h : names.Nodup) : names.eraseDups = names := by
  induction names with
  | nil => rfl
  | cons name names ih =>
      rw [List.nodup_cons] at h
      have hkept : (names.filter fun other => !other == name) = names := by
        rw [List.filter_eq_self]
        intro other hother
        have hne : other ≠ name := by
          rintro rfl
          exact h.1 hother
        simpa using hne
      rw [List.eraseDups_cons, hkept, ih h.2]

theorem map_snd_ofMask (h : names.Nodup) (m : Nat) :
    (ofMask names (m : Int)).map Prod.snd = cells names.length m := by
  have hkeys : (ofMask names (m : Int)).map Prod.fst = names := by
    rw [map_fst_ofMask, eraseDups_of_nodup h]
  rw [map_snd_eq_map_valuation (hkeys.symm ▸ h), hkeys, map_valuation_ofMask h]

/-! ## Decoding and enumerating -/

theorem binaryValue_ofMask (h : names.Nodup) (mask : Int) :
    (binaryValue ((ofMask names mask).map Prod.snd) : Int) = mask % 2 ^ names.length := by
  have hpos : (0 : Int) < 2 ^ names.length := Int.pow_pos (by decide)
  obtain ⟨m, hm⟩ := Int.eq_ofNat_of_zero_le (Int.emod_nonneg mask hpos.ne')
  have hlt : m < 2 ^ names.length := by
    have hrest := Int.emod_lt_of_pos mask hpos
    rw [hm] at hrest
    exact_mod_cast hrest
  rw [ofMask_emod, hm, map_snd_ofMask h, binaryValue_cells, Nat.mod_eq_of_lt hlt]

theorem decodesMasks_ofMask (names : List String) : DecodesMasks names (ofMask names) where
  keys := map_fst_ofMask names
  value := by
    intro mask j hj hlast
    rw [lookup_ofMask_getElem hj hlast, bit_eq_testBit]
  periodic := ofMask_emod names
  binary := binaryValue_ofMask

theorem all_eq (names : List String) :
    all names = (List.range (2 ^ names.length)).map fun m : Nat => ofMask names m := by
  rw [all, Nat.one_shiftLeft]

theorem enumerates_all (names : List String) : Enumerates names (all names) where
  length := by rw [all_eq, List.length_map, List.length_range]
  count := by
    intro v
    rw [all_eq, List.count_eq_countP, List.countP_map, ← countP_agrees v]
    apply List.countP_congr
    intro m _
    simp [ofMask_eq_map_iff]
  binary := by
    intro h
    rw [all_eq, List.map_map]
    conv_rhs => rw [← List.map_id (List.range _)]
    apply List.map_congr_left
    intro m hm
    show binaryValue ((ofMask names m).map Prod.snd) = m
    rw [map_snd_ofMask h, binaryValue_cells, Nat.mod_eq_of_lt (List.mem_range.1 hm)]
  increasing := by
    intro h
    rw [all_eq, List.map_map, List.pairwise_map]
    refine List.pairwise_lt_range.imp_of_mem ?_
    intro m k _ hk hmk
    have hk := List.mem_range.1 hk
    show (ofMask names m).map Prod.snd < (ofMask names k).map Prod.snd
    rw [map_snd_ofMask h, map_snd_ofMask h]
    apply lt_of_binaryValue_lt (by simp)
    rw [binaryValue_cells, binaryValue_cells, Nat.mod_eq_of_lt hk, Nat.mod_eq_of_lt (hmk.trans hk)]
    exact hmk

/-- A mask gives each name the bit of its last place, and the masks below `2 ^ n` give `n` names all
assignments, in ascending order. -/
theorem masks_enumerate (names : List String) :
    DecodesMasks names (ofMask names) ∧ Enumerates names (all names) :=
  ⟨decodesMasks_ofMask names, enumerates_all names⟩

/-- A repeated name takes the lower of its bits, also of a negative mask. -/
theorem masks_enumerate_repeated :
    (ofMask ["Q", "P", "Q"] (-2)).lookup "Q" = some false ∧
      (all ["Q", "P", "Q"]).count [("Q", false), ("P", true)] = 2 ∧
      (all ["Q", "P"]).map (fun a => binaryValue (a.map Prod.snd)) = [0, 1, 2, 3] := by
  have hlast : ["Q", "P", "Q"][2] ∉ ["Q", "P", "Q"].drop 3 := by decide
  have hcount := (masks_enumerate ["Q", "P", "Q"]).2.count fun name => name == "P"
  exact ⟨(masks_enumerate ["Q", "P", "Q"]).1.value (-2) 2 (by decide) hlast, hcount,
    (masks_enumerate ["Q", "P"]).2.binary (by decide)⟩

end Assignment

end Sentential
