import Sentential.Quantified.World
/-!
# A library of random numbers

The random numbers with which the command runs.  Those of one seed are reproducible and look
unrelated to each other; without a seed the seed is zero.
-/

namespace Sentential

namespace RandomLibrary

/-- A number for a seed and an index. -/
def scrambled (seed index : Nat) : Nat :=
  let z := UInt64.ofNat seed + UInt64.ofNat (index + 1) * 0x9e3779b97f4a7c15
  let z := (z ^^^ (z >>> 30)) * 0xbf58476d1ce4e5b9
  let z := (z ^^^ (z >>> 27)) * 0x94d049bb133111eb
  (z ^^^ (z >>> 31)).toNat

/-- A generator is its seed and the number of draws made. -/
def standard : RandomLibrary where
  Generator := Nat × Nat
  start := fun seed? =>
    let seed := seed?.getD 0
    if seed < 0 then .error "expected non-negative integer" else .ok (seed.toNat, 0)
  draw := fun (seed, made) bound hbound count =>
    if count < 0 then .error "negative dimensions are not allowed"
    else
      let numbers := (List.range count.toNat).map fun i =>
        ⟨scrambled seed (made + i) % bound, Nat.mod_lt _ hbound⟩
      .ok (numbers, seed, made + count.toNat)

end RandomLibrary

end Sentential
