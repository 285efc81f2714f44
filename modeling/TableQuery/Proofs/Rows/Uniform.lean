import TableQuery.Proofs.Row.Columns
import TableQuery.Proofs.Rows.Join
import TableQuery.Proofs.Rows.Order
import TableQuery.Rows.Select

/-!
# Rows of the same columns

Joining, filtering, ordering, projecting and paging give rows of the same columns when they are
given such rows. Only a join and a projection change the columns, and what they become depends on
the columns alone.
-/

namespace TableQuery

/-- The elements of a slice are elements of the list. -/
theorem slice_sublist {α : Type} (start stop : Option Int) (xs : List α) :
    (slice start stop xs).Sublist xs :=
  (List.drop_sublist _ _).trans (List.take_sublist _ _)

namespace Rows

/-- All rows have the given columns, in the given order. -/
def HaveColumns (columns : List String) (rows : List Row) : Prop :=
  ∀ row ∈ rows, row.columns = columns

/-- All rows have the same columns, in the same order. -/
def Uniform (rows : List Row) : Prop :=
  ∃ columns, HaveColumns columns rows

theorem page_sublist (rows : List Row) (offset limit : Option Int) :
    (page rows offset limit).Sublist rows :=
  (slice_sublist _ _ _).trans (slice_sublist _ _ _)

namespace HaveColumns

variable {columns : List String} {rows : List Row}

theorem mono {others : List Row} (h : HaveColumns columns rows) (hsub : others ⊆ rows) :
    HaveColumns columns others :=
  fun row hrow => h row (hsub hrow)

theorem join {right joined : List Row} {rightColumns : List String}
    {leftColumn rightColumn : String} (h : HaveColumns columns rows)
    (hright : HaveColumns rightColumns right)
    (hjoin : Rows.join rows right leftColumn rightColumn = .ok joined) :
    HaveColumns (columns ++ rightColumns.filter fun name => !columns.contains name) joined := by
  rw [eq_nestedLoop_of_join hjoin]
  intro row hrow
  obtain ⟨l, hl, r, hr, -, rfl⟩ := mem_nestedLoop.1 hrow
  rw [Row.columns_merge, h l hl, hright r hr]

theorem filter (h : HaveColumns columns rows) (text : Option String) :
    HaveColumns columns (Rows.filter rows text) := by
  rw [Rows.filter]
  split
  · exact h.mono List.filter_sublist.subset
  · exact h

theorem order {text : Option String} {sorted : List Row} (h : HaveColumns columns rows)
    (hsorted : Rows.order rows text = .ok sorted) : HaveColumns columns sorted :=
  h.mono (order_perm hsorted).subset

theorem project (h : HaveColumns columns rows) (names : List String) :
    HaveColumns (if names.isEmpty then columns else columns.filter names.contains)
      (Rows.project rows names) := by
  rw [Rows.project]
  split
  · exact h
  · intro row hrow
    obtain ⟨r, hr, rfl⟩ := List.mem_map.1 hrow
    rw [Row.columns_project, h r hr]

theorem page (h : HaveColumns columns rows) (offset limit : Option Int) :
    HaveColumns columns (Rows.page rows offset limit) :=
  h.mono (page_sublist rows offset limit).subset

end HaveColumns

end Rows

end TableQuery
