import TableQuery.Expression.Order
import TableQuery.Row
import TableQuery.Sorting
import TableQuery.Value.Order
import TableQuery.Value.SortKey

/-!
# Ordering rows

Rows are ordered by the sort key of one column. The keys of all rows are read
first; one that leaves the calendar stops the ordering.
-/

namespace TableQuery.Rows

open TableQuery.Calendar

/-- The rows with their keys. -/
def keyed (column : String) : List Row → Except OutOfRange (List (Value × Row))
  | [] => .ok []
  | row :: rows =>
    match Value.cellKey (row.get? column) with
    | .error e => .error e
    | .ok key => (keyed column rows).map fun rest => (key, row) :: rest

/-- The key of the first is below the key of the second. -/
def keyBelow (a b : Value × Row) : Bool :=
  a.1.compare b.1 == .lt

/-- The rows in an order. -/
def orderBy (o : SortOrder) (rows : List Row) : Except OutOfRange (List Row) :=
  (keyed o.column rows).map fun pairs =>
    (if o.descending then Sorting.descending keyBelow pairs
      else Sorting.ascending keyBelow pairs).map Prod.snd

/-- The rows in the order of a text; a blank text keeps their order. -/
def order (rows : List Row) (text : Option String) : Except OutOfRange (List Row) :=
  match SortOrder.parse? text with
  | some o => orderBy o rows
  | none => .ok rows

@[simp] theorem order_none (rows : List Row) : order rows none = .ok rows := rfl

end TableQuery.Rows
