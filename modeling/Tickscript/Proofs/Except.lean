import Mathlib.Data.List.Forall2

/-!
# `Tickscript.Proofs.Except`: computations that may fail, in parts

A computation in two parts succeeds if both parts do, and fails where one of them fails. With
these lemmas a proof takes a computation apart step by step instead of opening its definition.

A traversal runs a computation at each element of a list and fails at the first element where the
computation does. `forall₂_of_mapM` says what a traversal that succeeds amounts to: its result
corresponds to the list, element by element. The other facts about a traversal that succeeds (its
length, what stands at a place, what its elements come from) are read off this correspondence.
-/

set_option autoImplicit false

namespace Tickscript

variable {ε α β : Type}

/-! ### Two parts -/

/-- A computation in two parts that succeeds has succeeded in both. This is how proofs take a `do`
block apart from the front: the first part has a value, and the second one succeeds with it. -/
theorem bind_eq_ok {x : Except ε α} {f : α → Except ε β} {b : β} (h : x >>= f = .ok b) :
    ∃ a, x = .ok a ∧ f a = .ok b := by
  cases x with
  | error e => cases h
  | ok a => exact ⟨a, rfl, h⟩

/-- A computation in two parts that fails has failed in the first or in the second. In the second
case the first part has succeeded, with the value that the second one failed at. -/
theorem bind_eq_error {x : Except ε α} {f : α → Except ε β} {e : ε} (h : x >>= f = .error e) :
    x = .error e ∨ ∃ a, x = .ok a ∧ f a = .error e := by
  cases x with
  | error e' =>
    cases h
    exact Or.inl rfl
  | ok a => exact Or.inr ⟨a, rfl, h⟩

/-- Two computations that start alike differ by `h` in the end if their second parts do. Used
along a `do` block, this compares two machines that read the same operands. -/
theorem bind_eq_map_bind {γ : Type} {x : Except ε α} {f : α → Except ε β} {g : α → Except ε γ}
    {h : β → γ} (each : ∀ a, g a = (f a).map h) : x >>= g = (x >>= f).map h := by
  cases x with
  | error e => rfl
  | ok a => exact each a

/-- Computations are the same if they are so after their results were changed in a way that keeps
results apart. What they fail with is not changed at all, so nothing is asked of it. -/
theorem eq_of_map_eq {f : α → β} (apart : ∀ a b, f a = f b → a = b) {x y : Except ε α}
    (h : x.map f = y.map f) : x = y := by
  cases x with
  | error e =>
    cases y with
    | error e' => exact congrArg Except.error (Except.error.inj h)
    | ok b => cases h
  | ok a =>
    cases y with
    | error e => cases h
    | ok b => exact congrArg Except.ok (apart a b (Except.ok.inj h))

/-- Another reason for a failure changes no success. So a computation whose faults were renamed
succeeds exactly where it did before, and with the same value. -/
theorem mapError_eq_ok {ε' : Type} {x : Except ε α} {f : ε → ε'} {a : α} :
    x.mapError f = .ok a ↔ x = .ok a := by
  cases x with
  | error e => exact ⟨nofun, nofun⟩
  | ok b =>
    exact ⟨fun h => congrArg Except.ok (Except.ok.inj h),
      fun h => congrArg Except.ok (Except.ok.inj h)⟩

/-! ### Without the reason of a failure -/

/-- Without the reason of a failure, a computation in two parts is one of optional values. This is
how the value of a program that stops somewhere in between is computed, where the message does not
matter. -/
theorem toOption_bind (x : Except ε α) (f : α → Except ε β) :
    (x >>= f).toOption = x.toOption.bind fun a => (f a).toOption := by
  cases x with
  | error e => rfl
  | ok a => rfl

/-- A computation that has a value, when one does not look at its failures, succeeds with that
value. Optional values can be compared by evaluation where faults cannot. -/
theorem eq_ok_of_toOption {x : Except ε α} {a : α} (h : x.toOption = some a) : x = .ok a := by
  cases x with
  | error e => cases h
  | ok b => exact congrArg Except.ok (Option.some.inj h)

/-- The end of a `do` block, which cannot fail, has its value also as an optional one. It is the
last step of a computation that `toOption_bind` takes apart. -/
theorem toOption_pure (a : α) : (pure a : Except ε α).toOption = some a := rfl

/-! ### Traversals -/

section Traversal

variable {f : α → Except ε β} {xs : List α} {ys : List β}

/-- **A traversal that succeeds**, element by element: its result is as long as the list, and at
each place it has what the computation makes of the element there. The induction is on the list,
with the result as it comes out of the rest. -/
theorem forall₂_of_mapM (h : xs.mapM f = .ok ys) :
    List.Forall₂ (fun x y => f x = .ok y) xs ys := by
  induction xs generalizing ys with
  | nil =>
    cases h
    exact .nil
  | cons x xs ih =>
    rw [List.mapM_cons] at h
    obtain ⟨y, hy, h⟩ := bind_eq_ok h
    obtain ⟨rest, hrest, h⟩ := bind_eq_ok h
    cases h
    exact .cons hy (ih hrest)

/-- The result of a traversal is as long as the list. For code this means that encoding keeps
every address. -/
theorem length_of_mapM (h : xs.mapM f = .ok ys) : ys.length = xs.length :=
  (forall₂_of_mapM h).length_eq.symm

/-- What stands at a place in the result of a traversal comes from what stands there in the list.
This is used for code, where places are addresses. -/
theorem exists_getElem?_of_mapM (h : xs.mapM f = .ok ys) {k : Nat} {y : β}
    (hy : ys[k]? = some y) : ∃ x, xs[k]? = some x ∧ f x = .ok y := by
  obtain ⟨hk, rfl⟩ := List.getElem?_eq_some_iff.mp hy
  have hx : k < xs.length := by
    rw [← length_of_mapM h]
    exact hk
  exact ⟨xs[k], List.getElem?_eq_getElem hx, (forall₂_of_mapM h).get hx hk⟩

/-- What is in the result of a traversal comes from something in the list. This is for properties
that all results have, whatever their places. -/
theorem exists_of_mem_mapM (h : xs.mapM f = .ok ys) {y : β} (hy : y ∈ ys) :
    ∃ x ∈ xs, f x = .ok y := by
  obtain ⟨k, hk⟩ := List.mem_iff_getElem?.mp hy
  obtain ⟨x, hx, hfx⟩ := exists_getElem?_of_mapM h hk
  exact ⟨x, List.mem_of_getElem? hx, hfx⟩

/-- A traversal that succeeds has succeeded at everything in the list. -/
theorem exists_of_mapM_eq_ok (h : xs.mapM f = .ok ys) {x : α} (hx : x ∈ xs) :
    ∃ y, f x = .ok y := by
  obtain ⟨k, hk, rfl⟩ := List.mem_iff_getElem.mp hx
  have hy : k < ys.length := by
    rw [length_of_mapM h]
    exact hk
  exact ⟨ys[k], (forall₂_of_mapM h).get hk hy⟩

/-- A traversal succeeds if it succeeds at everything in the list. Together with
`exists_of_mapM_eq_ok` this says when a traversal succeeds. -/
theorem exists_mapM_eq_ok (h : ∀ x ∈ xs, ∃ y, f x = .ok y) : ∃ ys, xs.mapM f = .ok ys := by
  induction xs with
  | nil => exact ⟨[], rfl⟩
  | cons x xs ih =>
    obtain ⟨y, hy⟩ := h x List.mem_cons_self
    obtain ⟨ys, hys⟩ := ih fun z hz => h z (List.mem_cons_of_mem _ hz)
    refine ⟨y :: ys, ?_⟩
    rw [List.mapM_cons, hy, hys]
    rfl

/-- A traversal fails at the first element where the computation fails: everything before that
element has a result, and nothing after it matters. -/
theorem mapM_eq_error_iff {e : ε} :
    xs.mapM f = .error e ↔ ∃ before x after, xs = before ++ x :: after ∧
      (∀ b ∈ before, ∃ y, f b = .ok y) ∧ f x = .error e := by
  constructor
  · intro h
    induction xs with
    | nil => cases h
    | cons x xs ih =>
      rw [List.mapM_cons] at h
      rcases bind_eq_error h with here | ⟨y, hy, h⟩
      · exact ⟨[], x, xs, rfl, nofun, here⟩
      · -- What puts the head and the rest together cannot fail, so the rest has failed.
        rcases bind_eq_error h with later | ⟨ys, -, h⟩
        · obtain ⟨before, z, after, rfl, good, bad⟩ := ih later
          exact ⟨x :: before, z, after, rfl, List.forall_mem_cons.mpr ⟨⟨y, hy⟩, good⟩, bad⟩
        · cases h
  · rintro ⟨before, x, after, rfl, good, bad⟩
    obtain ⟨ys, hys⟩ := exists_mapM_eq_ok good
    rw [List.mapM_append, hys, List.mapM_cons, bad]
    rfl

/-- A traversal of lists of lists fails as the traversal of all of them in a row. So the lines of
a source can be read one by one, or all at once. -/
theorem mapM_flatten (f : α → Except ε β) (xss : List (List α)) :
    xss.flatten.mapM f = (xss.mapM fun (xs : List α) => xs.mapM f).map List.flatten := by
  induction xss with
  | nil => rfl
  | cons xs xss ih =>
    rw [List.flatten_cons, List.mapM_append, List.mapM_cons, ih]
    cases xs.mapM f with
    | error e => rfl
    -- The rest may fail, but then it does so on both sides.
    | ok ys => cases xss.mapM fun (xs : List α) => xs.mapM f <;> rfl

/-- Traversals of lists that look alike, where `t` is all that the computation looks at and `u` is
what is kept of its results. If the one succeeds then so does the other, and what is kept of the
two results is the same. -/
theorem exists_mapM_of_same {γ δ : Type} {t : α → γ} {u : β → δ}
    (hf : ∀ x y a, t x = t y → f x = .ok a → ∃ b, f y = .ok b ∧ u b = u a) {others : List α}
    (same : xs.map t = others.map t) (h : xs.mapM f = .ok ys) :
    ∃ results, others.mapM f = .ok results ∧ results.map u = ys.map u := by
  induction xs generalizing others ys with
  | nil =>
    cases h
    rw [List.map_eq_nil_iff.mp same.symm]
    exact ⟨[], rfl, rfl⟩
  | cons x xs ih =>
    -- The other list starts with an element that looks like `x`.
    obtain ⟨y, rest, rfl, hy, hrest⟩ := List.map_eq_cons_iff.mp same.symm
    rw [List.mapM_cons] at h
    obtain ⟨a, ha, h⟩ := bind_eq_ok h
    obtain ⟨as, has, h⟩ := bind_eq_ok h
    cases h
    obtain ⟨b, hb, hab⟩ := hf x y a hy.symm ha
    obtain ⟨bs, hbs, hmap⟩ := ih hrest.symm has
    refine ⟨b :: bs, ?_, by rw [List.map_cons, List.map_cons, hab, hmap]⟩
    rw [List.mapM_cons, hb, hbs]
    rfl

end Traversal

end Tickscript
