import TableQuery.Row
import TableQuery.Slice

/-!
# Result sets

The rows of an answer together with warnings about what went wrong beside it. The
columns of a result are those of its first row.
-/

namespace TableQuery

/-- Rows and warnings. -/
structure ResultSet where
  rows : List Row
  warnings : List String := []

namespace ResultSet

/-- The columns of the first row. -/
def columns (r : ResultSet) : List String :=
  match r.rows with
  | [] => []
  | row :: _ => row.columns

/-- The records of the rows. -/
def records (r : ResultSet) : List (List (String × Primitive)) :=
  r.rows.map Row.record

/-- Names in the order of their first appearance. -/
def firstAppearances (names : List String) : List String :=
  names.foldl (fun seen name => if seen.contains name then seen else seen ++ [name]) []

/-- The columns of all rows in the order of their first appearance. -/
def allColumns (r : ResultSet) : List String :=
  firstAppearances (r.rows.flatMap Row.columns)

/-- A slice of the rows, with the same warnings. -/
def slice (r : ResultSet) (start stop : Option Int) : ResultSet :=
  { r with rows := TableQuery.slice start stop r.rows }

end ResultSet

end TableQuery
