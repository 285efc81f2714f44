import Mathlib.Data.List.Perm.Basic
import TableQuery.Proofs.Sorting.Insertion

/-!
# Stable sorting

A relation is consistent on a list when being in order is transitive among its elements.
For such a list both ways of sorting, the short one by insertion and the long one by
merging, return the elements in order and keep elements that are level in their places;
the descending order does so as well.
-/

namespace TableQuery.Sorting

open scoped List

variable {α : Type}

/-- Among the elements of a list, being in order is transitive. -/
def Consistent (lt : α → α → Bool) (xs : List α) : Prop :=
  ∀ a ∈ xs, ∀ b ∈ xs, ∀ c ∈ xs, InOrder lt a b → InOrder lt b c → InOrder lt a c

/-- Neither of two elements is below the other. -/
def level (lt : α → α → Bool) (a b : α) : Bool :=
  !lt a b && !lt b a

/-- A list is another one sorted: a permutation in order, in which the elements that are
level with any one element follow each other as before. The element need not be in the
list, but being in order has to be transitive for it as well. -/
structure IsStableSort (lt : α → α → Bool) (xs sorted : List α) : Prop where
  perm : sorted ~ xs
  inOrder : sorted.Pairwise (InOrder lt)
  stable : ∀ a, Consistent lt (a :: xs) → sorted.filter (level lt a) = xs.filter (level lt a)

theorem level_iff {lt : α → α → Bool} {a b : α} :
    level lt a b = true ↔ InOrder lt b a ∧ InOrder lt a b := by
  simp [level, InOrder]

theorem Consistent.mono {lt : α → α → Bool} {xs ys : List α} (h : Consistent lt xs)
    (hsub : ys ⊆ xs) : Consistent lt ys := by
  intro a ha b hb c hc
  exact h a (hsub ha) b (hsub hb) c (hsub hc)

theorem Consistent.inOrder_of_level {lt : α → α → Bool} {xs : List α} (h : Consistent lt xs)
    {a b c : α} (ha : a ∈ xs) (hb : b ∈ xs) (hc : c ∈ xs) (hab : level lt a b = true)
    (hac : level lt a c = true) : InOrder lt b c :=
  h b hb a ha c hc (level_iff.1 hab).1 (level_iff.1 hac).2

theorem pairwise_of_isChain {R : α → α → Prop} {xs : List α}
    (htrans : ∀ a ∈ xs, ∀ b ∈ xs, ∀ c ∈ xs, R a b → R b c → R a c) (h : xs.IsChain R) :
    xs.Pairwise R := by
  have hmem := List.IsChain.iff_mem.1 h
  have : Trans (fun a b => a ∈ xs ∧ b ∈ xs ∧ R a b) (fun a b => a ∈ xs ∧ b ∈ xs ∧ R a b)
      (fun a b => a ∈ xs ∧ b ∈ xs ∧ R a b) :=
    ⟨fun {a b c} hab hbc =>
      ⟨hab.1, hbc.2.1, htrans a hab.1 b hab.2.1 c hbc.2.1 hab.2.2 hbc.2.2⟩⟩
  exact hmem.pairwise.imp fun {a b} hab => hab.2.2

theorem below_trans {lt : α → α → Bool} (hasymm : Asymmetric lt) {xs : List α}
    (h : Consistent lt xs) {a b c : α} (ha : a ∈ xs) (hb : b ∈ xs) (hc : c ∈ xs)
    (hba : lt b a = true) (hcb : lt c b = true) : lt c a = true := by
  by_contra hca
  have hac : InOrder lt a c := by simpa [InOrder] using hca
  have hab : InOrder lt a b := h a ha c hc b hb hac (hasymm c b hcb)
  rw [InOrder, hba] at hab
  exact absurd hab (by simp)

/-- In a sorted list nothing behind an element that the new one is below is level with
the new one or comes before it. -/
theorem below_of_head {lt : α → α → Bool} {pivot : α} {back : List α}
    (hcons : Consistent lt (pivot :: back)) (hsorted : back.Pairwise (InOrder lt))
    (hhead : ∀ x ∈ back.head?, lt pivot x = true) : ∀ x ∈ back, lt pivot x = true := by
  cases back with
  | nil => simp
  | cons y back =>
      have hy : lt pivot y = true := hhead y rfl
      intro x hx
      rcases List.mem_cons.1 hx with rfl | hx
      · exact hy
      · by_contra hpx
        have hxp : InOrder lt x pivot := by simpa [InOrder] using hpx
        have hyx : InOrder lt y x := (List.pairwise_cons.1 hsorted).1 x hx
        have hyp : InOrder lt y pivot :=
          hcons y (by simp) x (by simp [hx]) pivot (by simp) hyx hxp
        rw [InOrder, hy] at hyp
        exact absurd hyp (by simp)

theorem filter_level_insert {lt : α → α → Bool} {sorted : List α} {pivot a : α}
    (hcons : Consistent lt (a :: (sorted ++ [pivot]))) (hsorted : sorted.Pairwise (InOrder lt)) :
    (insert lt sorted pivot).filter (level lt a) = (sorted ++ [pivot]).filter (level lt a) := by
  obtain ⟨front, back, rfl, hinsert, -, hhead⟩ := exists_insert_eq lt sorted pivot
  rw [hinsert]
  cases hap : level lt a pivot with
  | false => simp [List.filter_append, hap]
  | true =>
      have hsub : pivot :: back ⊆ a :: (front ++ back ++ [pivot]) := by
        intro x hx
        rcases List.mem_cons.1 hx with rfl | hx <;> simp [*]
      have hbelow := below_of_head (hcons.mono hsub) (List.pairwise_append.1 hsorted).2.1 hhead
      -- What stands behind the new element is above it, so it is not level with `a`.
      have hback : back.filter (level lt a) = [] := by
        rw [List.filter_eq_nil_iff]
        intro x hx hax
        have hxp : InOrder lt x pivot :=
          hcons.inOrder_of_level (by simp) (hsub (by simp [hx])) (by simp) hax hap
        rw [InOrder, hbelow x hx] at hxp
        exact absurd hxp (by simp)
      simp [List.filter_append, hap, hback]

theorem IsStableSort.snoc {lt : α → α → Bool} (hasymm : Asymmetric lt) {xs sorted : List α}
    (h : IsStableSort lt xs sorted) (pivot : α) (hcons : Consistent lt (xs ++ [pivot])) :
    IsStableSort lt (xs ++ [pivot]) (insert lt sorted pivot) := by
  have hperm : sorted ++ [pivot] ~ xs ++ [pivot] := h.perm.append_right [pivot]
  have hinsert := (insert_perm lt sorted pivot).trans hperm
  refine ⟨hinsert, ?_, ?_⟩
  · exact pairwise_of_isChain (hcons.mono hinsert.subset)
      (isChain_insert hasymm h.inOrder.isChain pivot)
  · intro a ha
    have hstable := h.stable a (ha.mono (by simp))
    rw [filter_level_insert (ha.mono (List.cons_subset_cons a hperm.subset)) h.inOrder,
      List.filter_append, List.filter_append, hstable]

theorem IsStableSort.foldl {lt : α → α → Bool} (hasymm : Asymmetric lt) {xs run : List α}
    (h : IsStableSort lt xs run) (rest : List α) (hcons : Consistent lt (xs ++ rest)) :
    IsStableSort lt (xs ++ rest) (rest.foldl (insert lt) run) := by
  induction rest generalizing xs run with
  | nil => simpa using h
  | cons x rest ih =>
      have hsplit : xs ++ x :: rest = xs ++ [x] ++ rest := by simp
      rw [hsplit] at hcons ⊢
      exact ih (h.snoc hasymm x (hcons.mono (List.subset_append_left _ _))) hcons

/-- In a run that falls throughout no two elements are level. -/
theorem filter_level_reverse {lt : α → α → Bool} {run : List α} {a : α}
    (hcons : Consistent lt (a :: run)) (h : run.Pairwise fun x y => lt y x = true) :
    run.reverse.filter (level lt a) = run.filter (level lt a) := by
  have hsub := List.filter_sublist (p := level lt a) (l := run)
  have hfall := h.sublist hsub
  have hlevel : ∀ x ∈ run.filter (level lt a), level lt a x = true :=
    fun x hx => (List.mem_filter.1 hx).2
  rw [List.filter_reverse]
  match hrun : run.filter (level lt a) with
  | [] => rfl
  | [x] => rfl
  | x :: y :: rest =>
      rw [hrun] at hfall hlevel hsub
      have hxy : InOrder lt x y :=
        hcons.inOrder_of_level (by simp) (List.mem_cons_of_mem _ (hsub.subset (by simp)))
          (List.mem_cons_of_mem _ (hsub.subset (by simp))) (hlevel x (by simp))
          (hlevel y (by simp))
      rw [InOrder, (List.pairwise_cons.1 hfall).1 y (by simp)] at hxy
      exact absurd hxy (by simp)

theorem isStableSort_firstRun {lt : α → α → Bool} (hasymm : Asymmetric lt) {xs : List α}
    (hcons : Consistent lt xs) :
    ∃ run, xs = run ++ (firstRun lt xs).2 ∧ IsStableSort lt run (firstRun lt xs).1 := by
  obtain ⟨falling, run, rest, hxs, hrun, hchain⟩ := exists_firstRun_eq lt xs
  have hcons' : Consistent lt run := hcons.mono (hxs ▸ List.subset_append_left _ _)
  rw [hrun]
  refine ⟨run, hxs, ?_⟩
  cases falling with
  | false => exact ⟨List.Perm.refl _, pairwise_of_isChain hcons' hchain, fun _ _ => rfl⟩
  | true =>
      have hfall : run.Pairwise fun x y => lt y x = true :=
        pairwise_of_isChain
          (fun a ha b hb c hc => below_trans hasymm hcons' ha hb hc) hchain
      refine ⟨List.reverse_perm run, ?_, fun a ha => filter_level_reverse ha hfall⟩
      rw [if_pos rfl, List.pairwise_reverse]
      exact hfall.imp fun {a b} hab => hasymm b a hab

theorem isStableSort_insertionSort {lt : α → α → Bool} (hasymm : Asymmetric lt) {xs : List α}
    (hcons : Consistent lt xs) : IsStableSort lt xs (insertionSort lt xs) := by
  obtain ⟨run, hxs, hrun⟩ := isStableSort_firstRun hasymm hcons
  have h := hrun.foldl hasymm (firstRun lt xs).2 (hxs ▸ hcons)
  rwa [← hxs] at h

/-- Merging sorts the list as it sorts the list of its members, on which the relation is
transitive without exception. -/
theorem mergeSort_eq_map_attach (le : α → α → Bool) (xs : List α) :
    xs.mergeSort le = (xs.attach.mergeSort fun a b => le a.1 b.1).map Subtype.val := by
  rw [List.map_mergeSort (s := le) (fun a _ b _ => rfl), List.attach_map_subtype_val]

theorem isStableSort_mergeSort {lt : α → α → Bool} (hasymm : Asymmetric lt) {xs : List α}
    (hcons : Consistent lt xs) :
    IsStableSort lt xs (xs.mergeSort fun a b => !lt b a) := by
  have htrans : ∀ a b c : {x // x ∈ xs}, (!lt b.1 a.1) = true → (!lt c.1 b.1) = true →
      (!lt c.1 a.1) = true := by
    intro a b c hab hbc
    simp only [Bool.not_eq_true'] at hab hbc ⊢
    exact hcons a.1 a.2 b.1 b.2 c.1 c.2 hab hbc
  have htotal : ∀ a b : {x // x ∈ xs}, (!lt b.1 a.1 || !lt a.1 b.1) = true := by
    intro a b
    cases hba : lt b.1 a.1 with
    | false => rfl
    | true => simp [hasymm _ _ hba]
  have hperm := List.mergeSort_perm xs fun a b => !lt b a
  refine ⟨hperm, ?_, ?_⟩
  · rw [mergeSort_eq_map_attach, List.pairwise_map]
    exact (List.pairwise_mergeSort htrans htotal _).imp fun {a b} hab => by
      simpa [InOrder] using hab
  · intro a ha
    have hpairwise : (xs.attach.filter fun x => level lt a x.1).Pairwise
        fun x y => (!lt y.1 x.1) = true := by
      rw [List.pairwise_filter]
      refine List.pairwise_of_forall fun x y hx hy => ?_
      have hxy := ha.inOrder_of_level (by simp) (List.mem_cons_of_mem _ x.2)
        (List.mem_cons_of_mem _ y.2) hx hy
      simpa [InOrder] using hxy
    have hfilter : (xs.attach.filter fun x => level lt a x.1).map Subtype.val =
        xs.filter (level lt a) := by
      conv_rhs => rw [← List.attach_map_subtype_val xs, List.filter_map]
      rfl
    have hsub := (List.sublist_mergeSort htrans htotal hpairwise List.filter_sublist).map
      Subtype.val
    rw [← mergeSort_eq_map_attach (fun a b => !lt b a), hfilter] at hsub
    have hsub' := hsub.filter (level lt a)
    simp only [List.filter_filter, Bool.and_self] at hsub'
    exact (hsub'.eq_of_length (hperm.filter (level lt a)).length_eq.symm).symm

theorem ascending_isStableSort {lt : α → α → Bool} (hasymm : Asymmetric lt) {xs : List α}
    (hcons : Consistent lt xs) : IsStableSort lt xs (ascending lt xs) := by
  rw [ascending]
  split
  · exact isStableSort_insertionSort hasymm hcons
  · exact isStableSort_mergeSort hasymm hcons

/-- Sorting keeps the elements, whatever the relation is. -/
theorem ascending_perm (lt : α → α → Bool) (xs : List α) : ascending lt xs ~ xs := by
  rw [ascending]
  split
  · exact insertionSort_perm lt xs
  · exact List.mergeSort_perm xs _

theorem descending_perm (lt : α → α → Bool) (xs : List α) : descending lt xs ~ xs :=
  (List.reverse_perm _).trans ((ascending_perm lt _).trans (List.reverse_perm xs))

theorem Consistent.flip {lt : α → α → Bool} {xs : List α} (h : Consistent lt xs) :
    Consistent (fun a b => lt b a) xs := by
  intro a ha b hb c hc hab hbc
  exact h c hc b hb a ha hbc hab

theorem level_flip (lt : α → α → Bool) (a : α) : level (fun a b => lt b a) a = level lt a := by
  funext b
  exact Bool.and_comm _ _

theorem IsStableSort.reverse {lt : α → α → Bool} {xs sorted : List α}
    (h : IsStableSort lt xs.reverse sorted) :
    IsStableSort (fun a b => lt b a) xs sorted.reverse := by
  refine ⟨(List.reverse_perm sorted).trans (h.perm.trans (List.reverse_perm xs)), ?_, ?_⟩
  · rw [List.pairwise_reverse]
    exact h.inOrder
  · intro a ha
    have hstable := h.stable a (ha.flip.mono (by simp))
    rw [level_flip, List.filter_reverse, hstable, List.filter_reverse, List.reverse_reverse]

theorem Consistent.map {β : Type} {lt : α → α → Bool} {f : β → α} {xs : List β}
    (h : Consistent (fun a b => lt (f a) (f b)) xs) : Consistent lt (xs.map f) := by
  intro _ ha _ hb _ hc
  obtain ⟨a, hax, rfl⟩ := List.mem_map.1 ha
  obtain ⟨b, hbx, rfl⟩ := List.mem_map.1 hb
  obtain ⟨c, hcx, rfl⟩ := List.mem_map.1 hc
  exact h a hax b hbx c hcx

/-- Sorting images by a relation sorts the elements by the relation of their images, as
long as an element can be got back from its image. -/
theorem IsStableSort.of_map {β : Type} {lt : α → α → Bool} {f : β → α} {g : α → β}
    (hg : Function.LeftInverse g f) {xs : List β} {sorted : List α}
    (h : IsStableSort lt (xs.map f) sorted) :
    IsStableSort (fun a b => lt (f a) (f b)) xs (sorted.map g) := by
  have hback : (sorted.map g).map f = sorted := by
    rw [List.map_map]
    refine (List.map_congr_left fun y hy => ?_).trans (List.map_id sorted)
    obtain ⟨x, -, rfl⟩ := List.mem_map.1 (h.perm.subset hy)
    exact congrArg f (hg x)
  generalize sorted.map g = ys at hback ⊢
  subst hback
  have hinOrder := List.pairwise_map.1 h.inOrder
  refine ⟨(List.map_perm_map_iff hg.injective).1 h.perm, hinOrder, ?_⟩
  intro a ha
  have hstable := h.stable (f a) ha.map
  rw [List.filter_map, List.filter_map] at hstable
  exact List.map_injective_iff.2 hg.injective hstable

/-- Sorting the list turned round and turning the result round again sorts by the
opposite relation. -/
theorem descending_isStableSort {lt : α → α → Bool} (hasymm : Asymmetric lt) {xs : List α}
    (hcons : Consistent lt xs) : IsStableSort (fun a b => lt b a) xs (descending lt xs) :=
  (ascending_isStableSort hasymm (hcons.mono (by simp))).reverse

end TableQuery.Sorting
