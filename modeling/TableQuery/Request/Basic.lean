/-!
# Query requests

A request names an engine and a base table and describes a result: joins, filter,
order, projection, page and, for sheets, the sheet to export to. Limits and offsets
are never negative.
-/

namespace TableQuery

/-- A table to join and the two columns that must be equal. -/
structure JoinSpec where
  table : String
  leftColumn : String
  rightColumn : String
  deriving DecidableEq

/-- A declarative query. -/
structure Request where
  engine : String
  table : String
  columns : Option (List String) := none
  joins : List JoinSpec := []
  filter : Option String := none
  orderBy : Option String := none
  limit : Option Nat := none
  offset : Option Nat := none
  exportSheet : Option String := none
  deriving DecidableEq

namespace Request

/-- The listed columns, none when every column is wanted. -/
def projection (r : Request) : List String :=
  r.columns.getD []

/-- The request lists columns. -/
def hasProjection (r : Request) : Bool :=
  !r.projection.isEmpty

end Request

end TableQuery
