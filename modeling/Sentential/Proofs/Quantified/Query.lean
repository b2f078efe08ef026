import Sentential.Quantified.Query
/-!
# The two quantifiers of shape queries

The universal query of a shape and a colour fails because of an item of the shape with another
colour, and the existential queries look for just such items.  Where every item has a known colour,
each universal query is therefore settled by the existential ones.

The answers depend on which items there are, and not on their order or number.
-/

namespace Sentential

section Asking

variable {α : Type} (p : α → Bool) (xs : List α)

theorem result_askAll : (askAll p xs).result = xs.all p := by
  induction xs with
  | nil => rfl
  | cons x xs ih =>
      rw [askAll, List.all_cons]
      cases hx : p x with
      | false => rfl
      | true => exact ih

theorem result_askAny : (askAny p xs).result = xs.any p := by
  induction xs with
  | nil => rfl
  | cons x xs ih =>
      rw [askAny, List.any_cons]
      cases hx : p x with
      | false => exact ih
      | true => rfl

end Asking

theorem Hue.name_injective : Function.Injective Hue.name := by
  intro c c' h
  cases c <;> cases c' <;> first | rfl | exact absurd h (by decide)

namespace World

/-- Every item has a known colour. -/
def HasKnownColours (w : World) : Prop := ∀ item ∈ w, ∃ c : Hue, item.colour = c.name

/-- Whatever is drawn for an item is the place of a known colour. -/
theorem hasKnownColours_of_generate {lib : RandomLibrary} {count : Int} {seed? : Option Int}
    {w : World} (h : generate lib count seed? = .ok w) : w.HasKnownColours := by
  simp only [generate, bind, Except.bind, pure, Except.pure] at h
  split at h
  · cases h
  · split at h
    · cases h
    · split at h
      · cases h
      · cases h
        intro item hitem
        obtain ⟨index, _, rfl⟩ := List.mem_mapIdx.mp hitem
        exact ⟨_, rfl⟩

end World

namespace ShapeQuery

variable {s : Shape} {c : Hue} {v w : World}

/-! ## What the answers say -/

theorem evaluate_universal_eq :
    evaluate ⟨.universal, s, c⟩ w = w.all (asksOf ⟨.universal, s, c⟩) := result_askAll _ w

theorem evaluate_existential_eq :
    evaluate ⟨.existential, s, c⟩ w = w.any (asksOf ⟨.existential, s, c⟩) := result_askAny _ w

theorem asksOf_universal_iff {item : Item} :
    asksOf ⟨.universal, s, c⟩ item = true ↔ (item.shape = s.name → item.colour = c.name) := by
  by_cases h : item.shape = s.name <;> simp [asksOf, h]

theorem asksOf_existential_iff {item : Item} :
    asksOf ⟨.existential, s, c⟩ item = true ↔ item.shape = s.name ∧ item.colour = c.name := by
  simp [asksOf]

theorem evaluate_universal_iff :
    evaluate ⟨.universal, s, c⟩ w = true ↔
      ∀ item ∈ w, item.shape = s.name → item.colour = c.name := by
  rw [evaluate_universal_eq, List.all_eq_true]
  exact forall₂_congr fun item _ => asksOf_universal_iff

theorem evaluate_existential_iff :
    evaluate ⟨.existential, s, c⟩ w = true ↔
      ∃ item ∈ w, item.shape = s.name ∧ item.colour = c.name := by
  rw [evaluate_existential_eq, List.any_eq_true]
  exact exists_congr fun item => and_congr_right' asksOf_existential_iff

theorem evaluate_existential_eq_false_iff :
    evaluate ⟨.existential, s, c⟩ w = false ↔
      ∀ item ∈ w, item.shape = s.name → item.colour ≠ c.name := by
  rw [← Bool.not_eq_true, evaluate_existential_iff]
  constructor
  · intro h item hitem hshape hcolour
    exact h ⟨item, hitem, hshape, hcolour⟩
  · intro h ⟨item, hitem, hshape, hcolour⟩
    exact h item hitem hshape hcolour

/-! ## Duality -/

theorem evaluate_universal_iff_forall_ne (hw : w.HasKnownColours) :
    evaluate ⟨.universal, s, c⟩ w = true ↔
      ∀ c', c' ≠ c → evaluate ⟨.existential, s, c'⟩ w = false := by
  rw [evaluate_universal_iff]
  constructor
  · intro h c' hne
    rw [evaluate_existential_eq_false_iff]
    intro item hitem hshape hcolour
    exact hne (Hue.name_injective (hcolour.symm.trans (h item hitem hshape)))
  · intro h item hitem hshape
    obtain ⟨c', hcolour⟩ := hw item hitem
    by_cases hc : c' = c
    · rw [hcolour, hc]
    · exact absurd hcolour
        (evaluate_existential_eq_false_iff.mp (h c' hc) item hitem hshape)

/-- The universal query holds without the existential one only for want of items of the shape. -/
theorem evaluate_universal_and_not_existential_iff :
    evaluate ⟨.universal, s, c⟩ w = true ∧ evaluate ⟨.existential, s, c⟩ w = false ↔
      ∀ item ∈ w, item.shape ≠ s.name := by
  rw [evaluate_universal_iff, evaluate_existential_eq_false_iff]
  constructor
  · intro ⟨hall, hnone⟩ item hitem hshape
    exact hnone item hitem hshape (hall item hitem hshape)
  · intro h
    exact ⟨fun item hitem hshape => absurd hshape (h item hitem),
      fun item hitem hshape => absurd hshape (h item hitem)⟩

/-! ## Other worlds -/

/-- Worlds with the same items give the same answers. -/
theorem evaluate_congr (q : ShapeQuery) (h : ∀ item, item ∈ v ↔ item ∈ w) :
    q.evaluate v = q.evaluate w := by
  obtain ⟨quantifier, s, c⟩ := q
  rw [Bool.eq_iff_iff]
  cases quantifier with
  | universal =>
      rw [evaluate_universal_iff, evaluate_universal_iff]
      exact forall_congr' fun item => by rw [h item]
  | existential =>
      rw [evaluate_existential_iff, evaluate_existential_iff]
      exact exists_congr fun item => by rw [h item]

theorem evaluate_universal_append :
    evaluate ⟨.universal, s, c⟩ (v ++ w) =
      (evaluate ⟨.universal, s, c⟩ v && evaluate ⟨.universal, s, c⟩ w) := by
  rw [evaluate_universal_eq, evaluate_universal_eq, evaluate_universal_eq, List.all_append]

theorem evaluate_existential_append :
    evaluate ⟨.existential, s, c⟩ (v ++ w) =
      (evaluate ⟨.existential, s, c⟩ v || evaluate ⟨.existential, s, c⟩ w) := by
  rw [evaluate_existential_eq, evaluate_existential_eq, evaluate_existential_eq, List.any_append]

/-! ## Shape queries -/

/-- How the answers for a shape and a colour are related to each other and to the items. -/
structure IsDual (s : Shape) (c : Hue) : Prop where
  /-- All items of the shape have the colour if none has another known colour. -/
  dual : ∀ w : World, w.HasKnownColours →
    (evaluate ⟨.universal, s, c⟩ w = true ↔
      ∀ c', c' ≠ c → evaluate ⟨.existential, s, c'⟩ w = false)
  /-- Generated worlds have known colours only, whatever is drawn. -/
  generated : ∀ (lib : RandomLibrary) (count : Int) (seed? : Option Int) (w : World),
    World.generate lib count seed? = .ok w → w.HasKnownColours
  /-- Without items of the shape the universal query holds and the existential one fails. -/
  vacuous : ∀ w : World,
    evaluate ⟨.universal, s, c⟩ w = true ∧ evaluate ⟨.existential, s, c⟩ w = false ↔
      ∀ item ∈ w, item.shape ≠ s.name
  /-- The order of the items and their repetitions do not matter. -/
  sameItems : ∀ (quantifier : Quantifier) (v w : World), (∀ item, item ∈ v ↔ item ∈ w) →
    evaluate ⟨quantifier, s, c⟩ v = evaluate ⟨quantifier, s, c⟩ w
  universal_append : ∀ v w : World, evaluate ⟨.universal, s, c⟩ (v ++ w) =
    (evaluate ⟨.universal, s, c⟩ v && evaluate ⟨.universal, s, c⟩ w)
  existential_append : ∀ v w : World, evaluate ⟨.existential, s, c⟩ (v ++ w) =
    (evaluate ⟨.existential, s, c⟩ v || evaluate ⟨.existential, s, c⟩ w)

theorem evaluate_isDual (s : Shape) (c : Hue) : IsDual s c where
  dual _ hw := evaluate_universal_iff_forall_ne hw
  generated _ _ _ _ h := World.hasKnownColours_of_generate h
  vacuous _ := evaluate_universal_and_not_existential_iff
  sameItems _ _ _ h := evaluate_congr _ h
  universal_append _ _ := evaluate_universal_append
  existential_append _ _ := evaluate_existential_append

theorem evaluate_isDual_red_circle :
    let w : World := [⟨0, "red", "circle"⟩, ⟨1, "blue", "square"⟩]
    w.HasKnownColours ∧ evaluate ⟨.universal, .circle, .red⟩ w = true ∧
      ∀ c', c' ≠ .red → evaluate ⟨.existential, .circle, c'⟩ w = false := by
  intro w
  have hw : w.HasKnownColours := by
    intro item hitem
    rcases List.mem_cons.mp hitem with rfl | hitem
    · exact ⟨.red, rfl⟩
    · exact ⟨.blue, by rw [List.mem_singleton.mp hitem]; rfl⟩
  have huniversal : evaluate ⟨.universal, .circle, .red⟩ w = true := rfl
  exact ⟨hw, huniversal, ((evaluate_isDual .circle .red).dual w hw).mp huniversal⟩

/-- An item of an unknown colour is found by no existential query, and the universal one still
fails because of it. -/
example :
    let w : World := [⟨0, "pink", "circle"⟩]
    evaluate ⟨.universal, .circle, .red⟩ w = false ∧
      Hue.all.all (fun c => !evaluate ⟨.existential, .circle, c⟩ w) = true := by
  decide

end ShapeQuery

end Sentential
