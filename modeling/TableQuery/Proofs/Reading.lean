import Mathlib.Data.List.Forall2

/-!
# Readings in sequence

A reading that is put together from others succeeds exactly when each of them does. A list is
read element by element, so the results stand beside the elements that they were read from.
-/

namespace TableQuery

theorem bind_eq_ok_iff {ε α β : Type} {x : Except ε α} {f : α → Except ε β} {b : β} :
    x >>= f = .ok b ↔ ∃ a, x = .ok a ∧ f a = .ok b := by
  cases x with
  | error e => simp [bind, Except.bind]
  | ok a => simp [bind, Except.bind]

theorem map_eq_ok_iff {ε α β : Type} {x : Except ε α} {f : α → β} {b : β} :
    x.map f = .ok b ↔ ∃ a, x = .ok a ∧ f a = b := by
  cases x with
  | error e => simp [Except.map]
  | ok a => simp [Except.map]

theorem map_eq_error_iff {ε α β : Type} {x : Except ε α} {f : α → β} {e : ε} :
    x.map f = .error e ↔ x = .error e := by
  cases x with
  | error e' => simp [Except.map]
  | ok a => simp [Except.map]

theorem toOption_eq_some_iff {ε α : Type} {x : Except ε α} {a : α} :
    x.toOption = some a ↔ x = .ok a := by
  cases x with
  | error e => simp [Except.toOption]
  | ok b => simp [Except.toOption]

theorem exists_map_iff {ε α β : Type} {x : Except ε α} {f : α → β} :
    (∃ b, x.map f = .ok b) ↔ ∃ a, x = .ok a := by
  constructor
  · rintro ⟨b, hb⟩
    obtain ⟨a, ha, -⟩ := map_eq_ok_iff.1 hb
    exact ⟨a, ha⟩
  · rintro ⟨a, ha⟩
    exact ⟨f a, map_eq_ok_iff.2 ⟨a, ha, rfl⟩⟩

theorem map_map {ε α β γ : Type} (x : Except ε α) (f : α → β) (g : β → γ) :
    (x.map f).map g = x.map (g ∘ f) := by
  cases x <;> rfl

theorem map_eq_bind {ε α β : Type} (x : Except ε α) (f : α → β) :
    x.map f = x >>= fun a => .ok (f a) := by
  cases x <;> rfl

theorem map_bind {ε α β γ : Type} (x : Except ε α) (f : α → Except ε β) (g : β → γ) :
    (x >>= f).map g = x >>= fun a => (f a).map g := by
  cases x <;> rfl

theorem mapM_eq_ok_iff {ε α β : Type} {f : α → Except ε β} {xs : List α} {ys : List β} :
    xs.mapM f = .ok ys ↔ List.Forall₂ (fun x y => f x = .ok y) xs ys := by
  induction xs generalizing ys with
  | nil =>
      rw [List.mapM_nil, List.forall₂_nil_left_iff]
      constructor
      · intro h
        cases h
        rfl
      · rintro rfl
        rfl
  | cons x xs ih =>
      rw [List.mapM_cons, bind_eq_ok_iff, List.forall₂_cons_left_iff]
      constructor
      · rintro ⟨y, hy, h⟩
        obtain ⟨rest, hrest, h⟩ := bind_eq_ok_iff.1 h
        cases h
        exact ⟨y, rest, hy, ih.1 hrest, rfl⟩
      · rintro ⟨y, rest, hy, hrest, rfl⟩
        exact ⟨y, hy, bind_eq_ok_iff.2 ⟨rest, ih.2 hrest, rfl⟩⟩

theorem mapM_eq_ok_map {ε α β : Type} {f : α → Except ε β} {g : α → β} {xs : List α}
    (h : ∀ x ∈ xs, f x = .ok (g x)) : xs.mapM f = .ok (xs.map g) := by
  rw [mapM_eq_ok_iff, List.forall₂_map_right_iff, List.forall₂_same]
  exact h

theorem exists_forall₂_iff {α β : Type} {p : α → β → Prop} {xs : List α} :
    (∃ ys, List.Forall₂ p xs ys) ↔ ∀ x ∈ xs, ∃ y, p x y := by
  induction xs with
  | nil =>
      constructor
      · intro _ x hx
        exact absurd hx List.not_mem_nil
      · intro _
        exact ⟨[], .nil⟩
  | cons x xs ih =>
      rw [List.forall_mem_cons, ← ih]
      constructor
      · rintro ⟨ys, hys⟩
        obtain ⟨y, rest, hy, hrest, rfl⟩ := List.forall₂_cons_left_iff.1 hys
        exact ⟨⟨y, hy⟩, rest, hrest⟩
      · rintro ⟨⟨y, hy⟩, rest, hrest⟩
        exact ⟨y :: rest, .cons hy hrest⟩

theorem exists_of_mem_forall₂ {α β : Type} {p : α → β → Prop} {xs : List α} {ys : List β}
    (h : List.Forall₂ p xs ys) {y : β} (hy : y ∈ ys) : ∃ x ∈ xs, p x y := by
  induction h with
  | nil => cases hy
  | cons hxy _ ih =>
      rw [List.exists_mem_cons_iff]
      rcases List.mem_cons.1 hy with rfl | hy
      · exact .inl hxy
      · exact .inr (ih hy)

theorem exists_optionRel_iff {α β : Type} {p : α → β → Prop} {x : Option α} :
    (∃ y, Option.Rel p x y) ↔ ∀ a, x = some a → ∃ b, p a b := by
  cases x with
  | none =>
      constructor
      · intro _ a ha
        cases ha
      · intro _
        exact ⟨none, .none⟩
  | some a =>
      constructor
      · rintro ⟨y, hy⟩ a' ha'
        cases ha'
        cases hy with
        | some hb => exact ⟨_, hb⟩
      · intro h
        obtain ⟨b, hb⟩ := h a rfl
        exact ⟨some b, .some hb⟩

/-- Elements that were read with the same result agree in what the result determines. -/
theorem map_eq_of_forall₂ {α β γ : Type} {p q : α → β → Prop} {f : α → γ} {xs ys : List α}
    {zs : List β} (hxs : List.Forall₂ p xs zs) (hys : List.Forall₂ q ys zs)
    (h : ∀ a b c, p a c → q b c → f a = f b) : xs.map f = ys.map f := by
  induction hxs generalizing ys with
  | nil =>
      cases hys with
      | nil => rfl
  | cons hx _ ih =>
      cases hys with
      | cons hy hys => rw [List.map_cons, List.map_cons, h _ _ _ hx hy, ih hys]

end TableQuery
