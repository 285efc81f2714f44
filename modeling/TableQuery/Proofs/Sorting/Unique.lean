import TableQuery.Proofs.Sorting.Stable

/-!
# Uniqueness of stable sorting

Lists in order that hold the same elements are equal when elements that are level follow each other
alike in both. So a list has one stable sort, and what is left of it when elements are taken out is
the stable sort of what is left of the list.
-/

namespace TableQuery.Sorting

open scoped List

variable {α : Type} {lt : α → α → Bool}

theorem Asymmetric.self (hasymm : Asymmetric lt) (a : α) : lt a a = false := by
  cases h : lt a a with
  | false => rfl
  | true => exact h.symm.trans (hasymm a a h)

theorem level_self (hasymm : Asymmetric lt) (a : α) : level lt a a = true := by
  simp [level, hasymm.self]

/-- The first of some elements in order is not above any of them. -/
theorem inOrder_of_mem_cons (hasymm : Asymmetric lt) {a b : α} {xs : List α}
    (h : (a :: xs).Pairwise (InOrder lt)) (hb : b ∈ a :: xs) : InOrder lt a b := by
  rcases List.mem_cons.1 hb with rfl | hb
  · exact hasymm.self b
  · exact (List.pairwise_cons.1 h).1 b hb

/-- Lists in order are equal when level elements follow each other alike in both. -/
theorem eq_of_filter_level (hasymm : Asymmetric lt) {xs ys : List α} (hperm : ys ~ xs)
    (hxs : xs.Pairwise (InOrder lt)) (hys : ys.Pairwise (InOrder lt))
    (hlevel : ∀ a ∈ xs, xs.filter (level lt a) = ys.filter (level lt a)) : xs = ys := by
  induction xs generalizing ys with
  | nil => exact hperm.eq_nil.symm
  | cons a xs ih =>
      cases ys with
      | nil => exact absurd hperm.symm.eq_nil (List.cons_ne_nil a xs)
      | cons b ys =>
          -- Each head comes before the other one, so they are level, and then each of them is the
          -- first of its level.
          have hlevelHeads : level lt a b = true := by
            rw [level_iff]
            exact ⟨inOrder_of_mem_cons hasymm hys (hperm.mem_iff.2 List.mem_cons_self),
              inOrder_of_mem_cons hasymm hxs (hperm.mem_iff.1 List.mem_cons_self)⟩
          have hheads := hlevel a List.mem_cons_self
          rw [List.filter_cons_of_pos (level_self hasymm a),
            List.filter_cons_of_pos hlevelHeads] at hheads
          obtain ⟨rfl, -⟩ := List.cons.inj hheads
          refine congrArg (a :: ·) (ih hperm.cons_inv hxs.of_cons hys.of_cons fun c hc => ?_)
          have hc' := hlevel c (List.mem_cons_of_mem a hc)
          rw [List.filter_cons, List.filter_cons] at hc'
          split at hc'
          · exact (List.cons.inj hc').2
          · exact hc'

/-- Sorting what is left of a list gives what is left of the sorted list. -/
theorem IsStableSort.filter_eq (hasymm : Asymmetric lt) {xs sorted kept : List α}
    (hcons : Consistent lt xs) (h : IsStableSort lt xs sorted) (p : α → Bool)
    (hkept : IsStableSort lt (xs.filter p) kept) : sorted.filter p = kept := by
  refine eq_of_filter_level hasymm (hkept.perm.trans (h.perm.filter p).symm)
    (h.inOrder.filter p) hkept.inOrder fun a ha => ?_
  have hmem : a ∈ xs := h.perm.subset (List.mem_of_mem_filter ha)
  have ha' : Consistent lt (a :: xs) :=
    hcons.mono (List.cons_subset.2 ⟨hmem, List.Subset.refl xs⟩)
  have hlevel : Consistent lt (a :: xs.filter p) :=
    ha'.mono (List.cons_subset_cons a (List.filter_subset_self xs))
  rw [List.filter_comm, h.stable a ha', List.filter_comm, hkept.stable a hlevel]

end TableQuery.Sorting
