import TableQuery.Proofs.Sorting.Insertion

/-!
# Lowest elements, and lists that are in order already

The relation need not be transitive. Elements that are below all others and level with each other
come first nevertheless, in the order in which they were given. A list whose neighbours are in
order is its own first run, so sorting leaves it as it is.
-/

namespace TableQuery.Sorting

variable {α : Type}

/-- The elements of a class are below every other element, and no two of them are below each
other. -/
def IsLowest (lt : α → α → Bool) (p : α → Bool) : Prop :=
  ∀ a b, p a = true → lt a b = !p b

namespace IsLowest

variable {lt : α → α → Bool} {p : α → Bool} (h : IsLowest lt p)
include h

theorem of_inOrder {a b : α} (hab : InOrder lt a b) (hb : p b = true) : p a = true := by
  rw [InOrder, h b a hb] at hab
  simpa using hab

theorem not_below (hasymm : Asymmetric lt) {a b : α} (ha : p a = true) : lt b a = false := by
  cases hb : p b with
  | true => rw [h b a hb, ha, Bool.not_true]
  | false => exact hasymm a b (by rw [h a b ha, hb, Bool.not_false])

/-- Behind an element that is not among the lowest stands none of them. -/
theorem not_of_isChain_cons {x : α} {xs : List α} (hchain : (x :: xs).IsChain (InOrder lt))
    (hx : p x = false) : ∀ y ∈ xs, p y = false := by
  induction xs generalizing x with
  | nil => simp
  | cons y xs ih =>
      rw [List.isChain_cons_cons] at hchain
      have hy : p y = false := by
        rw [Bool.eq_false_iff]
        intro hy
        exact absurd (h.of_inOrder hchain.1 hy) (by simp [hx])
      rw [List.forall_mem_cons]
      exact ⟨hy, ih hchain.2 hy⟩

/-- In a list whose neighbours are in order, the lowest elements stand first. -/
theorem eq_filter_append {xs : List α} (hchain : xs.IsChain (InOrder lt)) :
    xs = xs.filter p ++ xs.filter fun x => !p x := by
  induction xs with
  | nil => rfl
  | cons x xs ih =>
      cases hx : p x with
      | true =>
          rw [List.filter_cons_of_pos hx, List.filter_cons_of_neg (by simp [hx]), List.cons_append,
            ← ih hchain.tail]
      | false =>
          have hxs := h.not_of_isChain_cons hchain hx
          have hnone : xs.filter p = [] := by
            rw [List.filter_eq_nil_iff]
            exact fun y hy => by simp [hxs y hy]
          have hall : (xs.filter fun x => !p x) = xs := by
            rw [List.filter_eq_self]
            exact fun y hy => by simp [hxs y hy]
          rw [List.filter_cons_of_neg (by simp [hx]), List.filter_cons_of_pos (by simp [hx]), hnone,
            hall, List.nil_append]

/-- A new element among the lowest goes behind those that are there. -/
theorem filter_insert {sorted : List α} (hchain : sorted.IsChain (InOrder lt)) (pivot : α) :
    (insert lt sorted pivot).filter p = sorted.filter p ++ [pivot].filter p := by
  obtain ⟨front, back, rfl, hinsert, -, hhead⟩ := exists_insert_eq lt sorted pivot
  rw [hinsert]
  cases hpivot : p pivot with
  | false => simp [List.filter_append, hpivot]
  | true =>
      have hback : ∀ y ∈ back, p y = false := by
        cases back with
        | nil => simp
        | cons x back =>
            have hx : p x = false := by
              have hlt := hhead x rfl
              rw [h pivot x hpivot] at hlt
              simpa using hlt
            rw [List.forall_mem_cons]
            exact ⟨hx, h.not_of_isChain_cons (List.isChain_append.1 hchain).2.1 hx⟩
      have hnone : back.filter p = [] := by
        rw [List.filter_eq_nil_iff]
        exact fun y hy => by simp [hback y hy]
      simp [List.filter_append, hpivot, hnone]

theorem filter_foldl_insert (hasymm : Asymmetric lt) (rest : List α) {run : List α}
    (hchain : run.IsChain (InOrder lt)) :
    (rest.foldl (insert lt) run).filter p = run.filter p ++ rest.filter p := by
  induction rest generalizing run with
  | nil => simp
  | cons x rest ih =>
      rw [List.foldl_cons, ih (isChain_insert hasymm hchain x), h.filter_insert hchain,
        List.append_assoc, ← List.filter_append, List.singleton_append]

/-- In a falling run only the last element can be among the lowest. -/
theorem filter_reverse_of_falling (hasymm : Asymmetric lt) {run : List α}
    (hfall : run.IsChain fun a b => lt b a = true) : run.reverse.filter p = run.filter p := by
  induction run with
  | nil => rfl
  | cons x run ih =>
      cases hx : p x with
      | false =>
          rw [List.reverse_cons, List.filter_append, ih hfall.tail,
            List.filter_cons_of_neg (by simp [hx]), List.filter_cons_of_neg (by simp [hx]),
            List.filter_nil, List.append_nil]
      | true =>
          cases run with
          | nil => rfl
          | cons y run =>
              rw [List.isChain_cons_cons, h.not_below hasymm hx] at hfall
              exact absurd hfall.1 (by decide)

theorem filter_firstRun (hasymm : Asymmetric lt) (xs : List α) :
    (firstRun lt xs).1.filter p ++ (firstRun lt xs).2.filter p = xs.filter p := by
  obtain ⟨falling, run, rest, rfl, hrun, hchain⟩ := exists_firstRun_eq lt xs
  rw [hrun, List.filter_append]
  cases falling with
  | true => rw [if_pos rfl, h.filter_reverse_of_falling hasymm hchain]
  | false => rfl

/-- Sorting keeps the lowest elements in their order. -/
theorem filter_insertionSort (hasymm : Asymmetric lt) (xs : List α) :
    (insertionSort lt xs).filter p = xs.filter p := by
  rw [insertionSort]
  exact (h.filter_foldl_insert hasymm _ (isChain_firstRun hasymm xs)).trans
    (h.filter_firstRun hasymm xs)

/-- The lowest elements come first, in the order in which they were given. -/
theorem exists_insertionSort_eq (hasymm : Asymmetric lt) (xs : List α) :
    ∃ others, (∀ y ∈ others, p y = false) ∧ insertionSort lt xs = xs.filter p ++ others := by
  have hsplit := h.eq_filter_append (isChain_insertionSort hasymm xs)
  rw [h.filter_insertionSort hasymm] at hsplit
  refine ⟨_, fun y hy => ?_, hsplit⟩
  simpa using (List.mem_filter.1 hy).2

end IsLowest

theorem runLength_of_isChain {lt : α → α → Bool} {last : α} {xs : List α}
    (h : (last :: xs).IsChain (InOrder lt)) : runLength lt false last xs = xs.length := by
  induction xs generalizing last with
  | nil => rfl
  | cons x xs ih =>
      rw [List.isChain_cons_cons, InOrder] at h
      rw [runLength, h.1, ih h.2]
      rfl

/-- A list whose neighbours are in order is one run. -/
theorem firstRun_of_isChain {lt : α → α → Bool} {xs : List α} (h : xs.IsChain (InOrder lt)) :
    firstRun lt xs = (xs, []) := by
  match xs with
  | [] => rfl
  | [x] => rfl
  | x :: y :: rest =>
      rw [List.isChain_cons_cons, InOrder] at h
      rw [firstRun, h.1, runLength_of_isChain h.2]
      simp [Nat.add_comm 2]

theorem insertionSort_of_isChain {lt : α → α → Bool} {xs : List α}
    (h : xs.IsChain (InOrder lt)) : insertionSort lt xs = xs := by
  rw [insertionSort, firstRun_of_isChain h]
  rfl

section Images

variable {β : Type} (lt : α → α → Bool) (f : β → α)

theorem slot_map (pivot : β) (sorted : List β) (fuel lo hi : Nat) :
    slot lt (f pivot) (sorted.map f) fuel lo hi =
      slot (fun a b => lt (f a) (f b)) pivot sorted fuel lo hi := by
  induction fuel generalizing lo hi with
  | zero => rfl
  | succ fuel ih =>
      simp only [slot, List.getElem?_map]
      cases sorted[lo + (hi - lo) / 2]? with
      | none => rfl
      | some x => simp only [Option.map_some, ih]

theorem insert_map (sorted : List β) (pivot : β) :
    insert lt (sorted.map f) (f pivot) =
      (insert (fun a b => lt (f a) (f b)) sorted pivot).map f := by
  rw [insert, insert, slot_map, List.length_map, List.map_append, List.map_cons, List.map_take,
    List.map_drop]

theorem runLength_map (falling : Bool) (last : β) (xs : List β) :
    runLength lt falling (f last) (xs.map f) =
      runLength (fun a b => lt (f a) (f b)) falling last xs := by
  induction xs generalizing last with
  | nil => rfl
  | cons x xs ih => rw [List.map_cons, runLength, runLength, ih]

theorem firstRun_map (xs : List β) :
    firstRun lt (xs.map f) =
      ((firstRun (fun a b => lt (f a) (f b)) xs).1.map f,
        (firstRun (fun a b => lt (f a) (f b)) xs).2.map f) := by
  match xs with
  | [] => rfl
  | [x] => rfl
  | x :: y :: rest =>
      simp only [List.map_cons, firstRun, runLength_map]
      rw [← List.map_cons, ← List.map_cons, ← List.map_take, ← List.map_drop, ← List.map_reverse]
      split <;> rfl

/-- Sorting images is sorting by the relation of the images. -/
theorem insertionSort_map (xs : List β) :
    insertionSort lt (xs.map f) = (insertionSort (fun a b => lt (f a) (f b)) xs).map f := by
  have hfold : ∀ rest run : List β, (rest.map f).foldl (insert lt) (run.map f) =
      (rest.foldl (insert fun a b => lt (f a) (f b)) run).map f := by
    intro rest
    induction rest with
    | nil => exact fun _ => rfl
    | cons x rest ih =>
        intro run
        rw [List.map_cons, List.foldl_cons, insert_map, ih]
        rfl
  rw [insertionSort, firstRun_map]
  exact hfold _ _

end Images

section Short

variable {lt : α → α → Bool} {xs : List α} (hshort : xs.length < mergeThreshold)
include hshort

theorem ascending_of_short : ascending lt xs = insertionSort lt xs :=
  if_pos hshort

theorem descending_of_short : descending lt xs = (insertionSort lt xs.reverse).reverse := by
  rw [descending, ascending_of_short (by rwa [List.length_reverse])]

end Short

end TableQuery.Sorting
