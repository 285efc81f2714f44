import Mathlib.Data.List.Chain
import TableQuery.Sorting

/-!
# Insertion by halving

Nothing is assumed of the relation beyond asymmetry. `slot` stops between a neighbour
that the new element is not below and one that it is below, so an insertion keeps
neighbours in order although the list need not be sorted as a whole. `insertionSort`
returns a permutation of its input whose neighbours are in order.
-/

namespace TableQuery.Sorting

open scoped List

variable {α : Type}

/-- The second of two elements is not below the first. -/
def InOrder (lt : α → α → Bool) (a b : α) : Prop :=
  lt b a = false

/-- No element is below one that is below it. -/
def Asymmetric (lt : α → α → Bool) : Prop :=
  ∀ a b, lt a b = true → lt b a = false

/-- The slots from `lo` to `hi` hold the place of a new element: it is not below the
element before `lo`, and it is below the one at `hi`. -/
structure Brackets (lt : α → α → Bool) (pivot : α) (sorted : List α) (lo hi : Nat) : Prop where
  lo_le_hi : lo ≤ hi
  hi_le_length : hi ≤ sorted.length
  notBelow : ∀ x ∈ (sorted.take lo).getLast?, lt pivot x = false
  below : ∀ x ∈ (sorted.drop hi).head?, lt pivot x = true

theorem brackets_all (lt : α → α → Bool) (pivot : α) (sorted : List α) :
    Brackets lt pivot sorted 0 sorted.length where
  lo_le_hi := Nat.zero_le _
  hi_le_length := Nat.le_refl _
  notBelow := by simp
  below := by simp

theorem Brackets.lower {lt : α → α → Bool} {pivot : α} {sorted : List α} {lo hi mid : Nat}
    (h : Brackets lt pivot sorted lo hi) (hlo : lo ≤ mid) (hhi : mid < hi) {x : α}
    (hx : sorted[mid]? = some x) (hlt : lt pivot x = true) :
    Brackets lt pivot sorted lo mid where
  lo_le_hi := hlo
  hi_le_length := Nat.le_trans (Nat.le_of_lt hhi) h.hi_le_length
  notBelow := h.notBelow
  below := by
    intro y hy
    rw [List.head?_drop, hx, Option.mem_some_iff] at hy
    exact hy ▸ hlt

theorem Brackets.raise {lt : α → α → Bool} {pivot : α} {sorted : List α} {lo hi mid : Nat}
    (h : Brackets lt pivot sorted lo hi) (hhi : mid < hi) {x : α}
    (hx : sorted[mid]? = some x) (hlt : lt pivot x = false) :
    Brackets lt pivot sorted (mid + 1) hi where
  lo_le_hi := hhi
  hi_le_length := h.hi_le_length
  notBelow := by
    intro y hy
    have hlast : (sorted.take (mid + 1)).getLast? = some x := by
      simp [List.getLast?_take, hx]
    rw [hlast, Option.mem_some_iff] at hy
    exact hy ▸ hlt
  below := h.below

/-- Halving keeps the brackets and closes them, as long as the fuel covers the slots
that are left. -/
theorem slot_brackets {lt : α → α → Bool} {pivot : α} {sorted : List α} (fuel : Nat) :
    ∀ {lo hi : Nat}, Brackets lt pivot sorted lo hi → hi - lo ≤ fuel →
      Brackets lt pivot sorted (slot lt pivot sorted fuel lo hi)
        (slot lt pivot sorted fuel lo hi) := by
  induction fuel with
  | zero =>
      intro lo hi h hfuel
      have heq : hi = lo := by have := h.lo_le_hi; omega
      subst heq
      exact h
  | succ fuel ih =>
      intro lo hi h hfuel
      rw [slot]
      by_cases hlt : lo < hi
      · have hlen := h.hi_le_length
        have hmid : lo + (hi - lo) / 2 < sorted.length := by omega
        have hx : sorted[lo + (hi - lo) / 2]? = some (sorted[lo + (hi - lo) / 2]) :=
          List.getElem?_eq_getElem hmid
        simp only [if_pos hlt, hx]
        cases hp : lt pivot sorted[lo + (hi - lo) / 2] with
        | true => exact ih (h.lower (by omega) (by omega) hx hp) (by omega)
        | false => exact ih (h.raise (by omega) hx hp) (by omega)
      · have heq : hi = lo := by have := h.lo_le_hi; omega
        rw [if_neg hlt]
        subst heq
        exact h

/-- Where `insert` puts a new element: behind elements the last of which it is not
below, and before elements the first of which it is below. -/
theorem exists_insert_eq (lt : α → α → Bool) (sorted : List α) (pivot : α) :
    ∃ front back, sorted = front ++ back ∧ insert lt sorted pivot = front ++ pivot :: back ∧
      (∀ x ∈ front.getLast?, lt pivot x = false) ∧ ∀ x ∈ back.head?, lt pivot x = true := by
  have h := slot_brackets sorted.length (brackets_all lt pivot sorted) (by omega)
  exact ⟨_, _, (List.take_append_drop _ _).symm, rfl, h.notBelow, h.below⟩

theorem insert_perm (lt : α → α → Bool) (sorted : List α) (pivot : α) :
    insert lt sorted pivot ~ sorted ++ [pivot] := by
  obtain ⟨front, back, hsorted, hinsert, -, -⟩ := exists_insert_eq lt sorted pivot
  rw [hinsert, hsorted]
  calc
    front ++ pivot :: back ~ pivot :: (front ++ back) := List.perm_middle
    _ ~ front ++ back ++ [pivot] := (List.perm_append_singleton _ _).symm

theorem isChain_insert {lt : α → α → Bool} (hasymm : Asymmetric lt) {sorted : List α}
    (h : sorted.IsChain (InOrder lt)) (pivot : α) :
    (insert lt sorted pivot).IsChain (InOrder lt) := by
  obtain ⟨front, back, hsorted, hinsert, hfront, hback⟩ := exists_insert_eq lt sorted pivot
  rw [hsorted, List.isChain_append] at h
  rw [hinsert, List.isChain_append, List.isChain_cons]
  refine ⟨h.1, ⟨?_, h.2.1⟩, ?_⟩
  · intro y hy
    exact hasymm _ _ (hback y hy)
  · intro x hx y hy
    rw [List.head?_cons, Option.mem_some_iff] at hy
    exact hy ▸ hfront x hx

theorem foldl_insert_perm (lt : α → α → Bool) (rest run : List α) :
    rest.foldl (insert lt) run ~ run ++ rest := by
  induction rest generalizing run with
  | nil => simp
  | cons x rest ih =>
      calc
        (x :: rest).foldl (insert lt) run ~ insert lt run x ++ rest := ih _
        _ ~ run ++ [x] ++ rest := (insert_perm lt run x).append_right rest
        _ = run ++ x :: rest := by simp

theorem isChain_foldl_insert {lt : α → α → Bool} (hasymm : Asymmetric lt) (rest : List α)
    {run : List α} (h : run.IsChain (InOrder lt)) :
    (rest.foldl (insert lt) run).IsChain (InOrder lt) := by
  induction rest generalizing run with
  | nil => exact h
  | cons x rest ih => exact ih (isChain_insert hasymm h x)

/-- The elements that `runLength` counts continue a run: all of them fall, or none. -/
theorem isChain_runLength (lt : α → α → Bool) (falling : Bool) (last : α) (xs : List α) :
    (last :: xs.take (runLength lt falling last xs)).IsChain fun a b => lt b a = falling := by
  induction xs generalizing last with
  | nil => simp
  | cons x xs ih =>
      rw [runLength]
      by_cases hx : lt x last = falling
      · simp only [hx, beq_self_eq_true, if_true, List.take_succ_cons, List.isChain_cons_cons]
        exact ⟨trivial, ih x⟩
      · simp [hx]

/-- How the first run is made: a prefix that falls throughout is turned round, and one
that never falls is kept. -/
theorem exists_firstRun_eq (lt : α → α → Bool) (xs : List α) :
    ∃ falling run rest, xs = run ++ rest ∧
      firstRun lt xs = (if falling then run.reverse else run, rest) ∧
      run.IsChain fun a b => lt b a = falling := by
  match xs with
  | [] => exact ⟨false, [], [], rfl, rfl, List.isChain_nil⟩
  | [x] => exact ⟨false, [x], [], rfl, rfl, List.isChain_singleton x⟩
  | x :: y :: rest =>
      refine ⟨lt y x, _, _, (List.take_append_drop (2 + runLength lt (lt y x) y rest) _).symm,
        rfl, ?_⟩
      have htake : (x :: y :: rest).take (2 + runLength lt (lt y x) y rest) =
          x :: y :: rest.take (runLength lt (lt y x) y rest) := by
        rw [Nat.add_comm]
        rfl
      rw [htake, List.isChain_cons_cons]
      exact ⟨rfl, isChain_runLength lt (lt y x) y rest⟩

theorem firstRun_perm (lt : α → α → Bool) (xs : List α) :
    (firstRun lt xs).1 ++ (firstRun lt xs).2 ~ xs := by
  obtain ⟨falling, run, rest, hxs, hrun, -⟩ := exists_firstRun_eq lt xs
  rw [hrun, hxs]
  cases falling with
  | true => exact (List.reverse_perm run).append_right rest
  | false => exact List.Perm.refl _

theorem isChain_firstRun {lt : α → α → Bool} (hasymm : Asymmetric lt) (xs : List α) :
    (firstRun lt xs).1.IsChain (InOrder lt) := by
  obtain ⟨falling, run, rest, -, hrun, hchain⟩ := exists_firstRun_eq lt xs
  rw [hrun]
  cases falling with
  | true =>
      rw [if_pos rfl, List.isChain_reverse]
      exact hchain.imp fun a b hab => hasymm b a hab
  | false => exact hchain

theorem insertionSort_perm (lt : α → α → Bool) (xs : List α) : insertionSort lt xs ~ xs :=
  (foldl_insert_perm lt _ _).trans (firstRun_perm lt xs)

theorem isChain_insertionSort {lt : α → α → Bool} (hasymm : Asymmetric lt) (xs : List α) :
    (insertionSort lt xs).IsChain (InOrder lt) :=
  isChain_foldl_insert hasymm _ (isChain_firstRun hasymm xs)

end TableQuery.Sorting
