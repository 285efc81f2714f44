import TableQuery.Failure
import TableQuery.Row
import TableQuery.Sheet.UsedRange
import TableQuery.Text.Casing

/-!
# Books of grids

A book is a list of titled grids. Titles are matched without regard to case. A sheet
is loaded as rows of texts, which needs a header of distinct names.
-/

namespace TableQuery

open TableQuery.Text

/-- Titled grids. -/
abbrev Book := List (String × Grid)

namespace Book

/-- The titles in order. -/
def titles (b : Book) : List String :=
  b.map Prod.fst

/-- The contents of the sheet with a name. -/
def read (b : Book) (name : String) : Except QueryError TextTable :=
  match b.find? fun sheet => sameFold sheet.1 name with
  | some sheet => .ok sheet.2.contents
  | none => .error (.sheetMissing name)

end Book

/-- The first name of a list that occurs again before it. -/
def firstRepeated? (seen : List String) : List String → Option String
  | [] => none
  | name :: names =>
    if seen.contains name then some name else firstRepeated? (name :: seen) names

namespace TextTable

/-- The row of a header and the texts under it. -/
def rowOf (header texts : List String) : Row :=
  Row.ofList ((header.zip texts).map fun (name, s) => (name, Value.text s))

/-- The rows of a table, whose header must not repeat a name. -/
def toRows (t : TextTable) (name : String) : Except QueryError (List Row) :=
  match firstRepeated? [] t.header with
  | some column => .error (.columnRepeated name column)
  | none => .ok (t.rows.map (rowOf t.header))

end TextTable

namespace Book

/-- The rows of the sheet with a name. -/
def load (b : Book) (name : String) : Except QueryError (List Row) :=
  match b.read name with
  | .error e => .error e
  | .ok t => t.toRows name

end Book

end TableQuery
