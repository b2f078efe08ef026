import Sentential.Proofs.Quantified.Query
/-!
# Where an inquiry stops

An inquiry calls its predicate on one item after the other and ends behind the first item that
decides the question; without such an item it ends behind the last one.  So a universal question is
the existential one about the opposite, item by item.

That an item is visited means that the predicate is called on it.  If calls have effects, the
effects of an inquiry are those of the items visited, in their order.
-/

namespace Sentential

namespace Inquiry

variable {α : Type}

/-- The items are visited in order, up to and including the first one that decides the question, and
the answer is `answer` exactly if there is one. -/
structure StopsAtFirst (q : Inquiry α) (decides : α → Bool) (answer : Bool) (xs : List α) :
    Prop where
  of_forall : (∀ x ∈ xs, decides x = false) → q = ⟨!answer, xs⟩
  of_first : ∀ before x after, xs = before ++ x :: after →
    (∀ y ∈ before, decides y = false) → decides x = true → q = ⟨answer, before ++ [x]⟩

/-- The opposite answer after the same visits. -/
def negated (q : Inquiry α) : Inquiry α := ⟨!q.result, q.visited⟩

theorem StopsAtFirst.negated {q : Inquiry α} {decides : α → Bool} {answer : Bool} {xs : List α}
    (h : q.StopsAtFirst decides answer xs) : q.negated.StopsAtFirst decides (!answer) xs := by
  constructor
  case of_forall =>
    intro hall
    rw [h.of_forall hall]
    rfl
  case of_first =>
    intro before x after hxs hbefore hx
    rw [h.of_first before x after hxs hbefore hx]
    rfl

end Inquiry

section Asking

variable {α : Type} (p : α → Bool) (xs : List α)

/-- A universal question is an existential one about the opposite. -/
theorem askAll_eq_negated : askAll p xs = (askAny (fun x => !p x) xs).negated := by
  induction xs with
  | nil => rfl
  | cons x xs ih =>
      rw [askAll, askAny, ih]
      cases p x <;> rfl

theorem askAny_of_forall (h : ∀ x ∈ xs, p x = false) : askAny p xs = ⟨false, xs⟩ := by
  induction xs with
  | nil => rfl
  | cons x xs ih =>
      obtain ⟨hx, hxs⟩ := List.forall_mem_cons.1 h
      simp only [askAny, hx, ih hxs, Bool.false_eq_true, if_false]

theorem askAny_append_cons {before : List α} {x : α} (hbefore : ∀ y ∈ before, p y = false)
    (hx : p x = true) (after : List α) :
    askAny p (before ++ x :: after) = ⟨true, before ++ [x]⟩ := by
  induction before with
  | nil => simp only [List.nil_append, askAny, hx, if_true]
  | cons y before ih =>
      obtain ⟨hy, hbefore⟩ := List.forall_mem_cons.1 hbefore
      simp only [List.cons_append, askAny, hy, ih hbefore, Bool.false_eq_true, if_false]

theorem askAny_stopsAtFirst : (askAny p xs).StopsAtFirst p true xs := by
  constructor
  case of_forall => exact askAny_of_forall p xs
  case of_first =>
    rintro before x after rfl hbefore hx
    exact askAny_append_cons p hbefore hx after

theorem askAll_stopsAtFirst : (askAll p xs).StopsAtFirst (fun x => !p x) false xs := by
  rw [askAll_eq_negated]
  exact (askAny_stopsAtFirst (fun x => !p x) xs).negated

/-! ## Calls with effects -/

section Effects

variable {m : Type → Type} [Monad m] [LawfulMonad m] (call : α → m PUnit)

/-- A search that calls the predicate on one item after the other, and stops as soon as a call
yields true, makes the calls of the inquiry. -/
theorem anyM_eq_forM_visited :
    (xs.anyM fun x => do call x; return p x) =
      (do forM (askAny p xs).visited call; return (askAny p xs).result) := by
  induction xs with
  | nil => simp [askAny]
  | cons x xs ih =>
      rw [askAny, List.anyM, bind_assoc]
      cases hx : p x with
      | true => simp only [pure_bind, if_true, List.forM_cons, List.forM_nil, bind_assoc]
      | false =>
          simp only [pure_bind, ih, Bool.false_eq_true, if_false, List.forM_cons, bind_assoc]

theorem allM_eq_forM_visited :
    (xs.allM fun x => do call x; return p x) =
      (do forM (askAll p xs).visited call; return (askAll p xs).result) := by
  induction xs with
  | nil => simp [askAll]
  | cons x xs ih =>
      rw [askAll, List.allM, bind_assoc]
      cases hx : p x with
      | true => simp only [pure_bind, ih, if_true, List.forM_cons, bind_assoc]
      | false =>
          simp only [pure_bind, Bool.false_eq_true, if_false, List.forM_cons, List.forM_nil,
            bind_assoc]

end Effects

end Asking

/-! ## Both quantifiers -/

/-- How a predicate is asked of a list of items by the two quantifiers. -/
structure IsAskedInOrder {α : Type} (p : α → Bool) (xs : List α) : Prop where
  universal : (askAll p xs).StopsAtFirst (fun x => !p x) false xs
  existential : (askAny p xs).StopsAtFirst p true xs
  /-- Not all items satisfy the predicate if some item satisfies its opposite, and the same items
  are visited to find that out. -/
  dual : askAll p xs = (askAny (fun x => !p x) xs).negated
  /-- The visited items are those on which the predicate is called. -/
  universal_calls : ∀ (m : Type → Type) [Monad m] [LawfulMonad m] (call : α → m PUnit),
    (xs.allM fun x => do call x; return p x) =
      (do forM (askAll p xs).visited call; return (askAll p xs).result)
  existential_calls : ∀ (m : Type → Type) [Monad m] [LawfulMonad m] (call : α → m PUnit),
    (xs.anyM fun x => do call x; return p x) =
      (do forM (askAny p xs).visited call; return (askAny p xs).result)

theorem ask_isAskedInOrder {α : Type} (p : α → Bool) (xs : List α) : IsAskedInOrder p xs where
  universal := askAll_stopsAtFirst p xs
  existential := askAny_stopsAtFirst p xs
  dual := askAll_eq_negated p xs
  universal_calls _ _ _ call := allM_eq_forM_visited p xs call
  existential_calls _ _ _ call := anyM_eq_forM_visited p xs call

/-- The third number is not below three, so the fourth is not looked at, and a predicate that keeps
a record of its calls has been called three times. -/
theorem ask_isAskedInOrder_third :
    let p : Nat → Bool := (· < 3)
    let noted : Nat → StateM (List Nat) Bool := fun n => do
      modify (· ++ [n])
      return p n
    ((∀ n ∈ [1, 2], (!p n) = false) ∧ (!p 5) = true) ∧
      askAll p [1, 2, 5, 0] = ⟨false, [1, 2, 5]⟩ ∧
      askAny (fun n => !p n) [1, 2, 5, 0] = ⟨true, [1, 2, 5]⟩ ∧
      (List.allM noted [1, 2, 5, 0]).run [] = (false, [1, 2, 5]) := by
  intro p noted
  have hbefore : ∀ n ∈ [1, 2], (!p n) = false := by decide
  have hasked := ask_isAskedInOrder p [1, 2, 5, 0]
  have hall := hasked.universal.of_first [1, 2] 5 [0] rfl hbefore rfl
  have hany := (ask_isAskedInOrder (fun n => !p n) [1, 2, 5, 0]).existential.of_first [1, 2] 5 [0]
    rfl hbefore rfl
  refine ⟨⟨hbefore, rfl⟩, hall, hany, ?_⟩
  have hcalls := hasked.universal_calls (StateM (List Nat)) fun n => modify (· ++ [n])
  rw [hall] at hcalls
  exact congrArg (fun calls => calls.run []) hcalls

end Sentential
