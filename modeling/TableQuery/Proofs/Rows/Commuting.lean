import TableQuery.Proofs.Rows.Order
import TableQuery.Proofs.Sorting.Unique
import TableQuery.Rows.Select

/-!
# Filtering and ordering

Rows whose keys are homogeneous have one stable order, and rows that a filter keeps stand in it as
they stand among all rows. So it does not matter whether rows are filtered before they are ordered
or after it.
-/

namespace TableQuery.Rows

open TableQuery.Sorting

section Kept

variable {column : String} {rows : List Row}

theorem homogeneous_filter (h : Value.Homogeneous (rows.map (keyOf column))) (p : Row → Bool) :
    Value.Homogeneous ((rows.filter p).map (keyOf column)) :=
  h.mono (List.map_subset _ (List.filter_subset_self rows))

theorem ascending_filter (h : Value.Homogeneous (rows.map (keyOf column))) (p : Row → Bool) :
    (ascending keyBelow ((rows.filter p).map (withKey column))).map Prod.snd =
      ((ascending keyBelow (rows.map (withKey column))).map Prod.snd).filter p :=
  ((isStableSort_ascending h).filter_eq (rowBelow_asymmetric column) (rowBelow_consistent h) p
    (isStableSort_ascending (homogeneous_filter h p))).symm

theorem descending_filter (h : Value.Homogeneous (rows.map (keyOf column))) (p : Row → Bool) :
    (descending keyBelow ((rows.filter p).map (withKey column))).map Prod.snd =
      ((descending keyBelow (rows.map (withKey column))).map Prod.snd).filter p :=
  ((isStableSort_descending h).filter_eq (fun a b => rowBelow_asymmetric column b a)
    (rowBelow_consistent h).flip p (isStableSort_descending (homogeneous_filter h p))).symm

end Kept

theorem exists_orderBy_filter {o : SortOrder} {rows : List Row} (hkeys : HasKeys o.column rows)
    (h : Value.Homogeneous (rows.map (keyOf o.column))) (p : Row → Bool) :
    ∃ sorted, orderBy o rows = .ok sorted ∧ orderBy o (rows.filter p) = .ok (sorted.filter p) := by
  rw [orderBy, orderBy, keyed_eq hkeys, keyed_eq (hkeys.mono (List.filter_subset_self rows))]
  refine ⟨_, rfl, ?_⟩
  cases o.descending with
  | false => exact congrArg Except.ok (ascending_filter h p)
  | true => exact congrArg Except.ok (descending_filter h p)

theorem exists_filter_eq (text : Option String) :
    ∃ p : Row → Bool, ∀ rows, filter rows text = rows.filter p := by
  unfold filter
  cases Equality.parse? text with
  | none => exact ⟨fun _ => true, fun rows => (List.filter_true rows).symm⟩
  | some p => exact ⟨satisfies p, fun rows => rfl⟩

/-- Rows can be filtered before they are ordered or after it, whatever the filter and the order
are, when the keys of the order can be read and are homogeneous. -/
theorem order_filter_comm {rows : List Row} {orderText : Option String}
    (h : ∀ o ∈ SortOrder.parse? orderText,
      HasKeys o.column rows ∧ Value.Homogeneous (rows.map (keyOf o.column)))
    (filterText : Option String) :
    ∃ sorted, order rows orderText = .ok sorted ∧
      order (filter rows filterText) orderText = .ok (filter sorted filterText) := by
  obtain ⟨p, hfilter⟩ := exists_filter_eq filterText
  simp only [hfilter, order]
  cases ho : SortOrder.parse? orderText with
  | none => exact ⟨rows, rfl, rfl⟩
  | some o =>
      obtain ⟨hkeys, hhomogeneous⟩ := h o ho
      exact exists_orderBy_filter hkeys hhomogeneous p

/-- The two level rows that the filter keeps stay in their places when the order falls. -/
theorem order_filter_comm_levelRows :
    (∀ o ∈ SortOrder.parse? (some "k desc"),
      HasKeys o.column levelRows ∧ Value.Homogeneous (levelRows.map (keyOf o.column))) ∧
    (filter levelRows (some "k = '1'")).map (·.get? "n") =
      [some (.text "a"), some (.text "d")] ∧
    ∃ sorted, order levelRows (some "k desc") = .ok sorted ∧
      order (filter levelRows (some "k = '1'")) (some "k desc") =
        .ok (filter sorted (some "k = '1'")) := by
  have hlevel : ∀ o ∈ SortOrder.parse? (some "k desc"),
      HasKeys o.column levelRows ∧ Value.Homogeneous (levelRows.map (keyOf o.column)) := by
    intro o ho
    cases ho
    exact ⟨hasKeys_levelRows, homogeneous_levelRows⟩
  exact ⟨hlevel, by decide +kernel, order_filter_comm hlevel (some "k = '1'")⟩

end TableQuery.Rows
