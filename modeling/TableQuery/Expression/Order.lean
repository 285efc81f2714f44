import TableQuery.Text.Blank
import TableQuery.Text.Casing

/-!
# Order texts

An order is `column`, optionally followed by a direction. A second word other than
`DESC` is read as ascending, and further words are ignored; `isStrict` tells the
texts that are written without such liberties.
-/

namespace TableQuery

open TableQuery.Text

/-- A column to sort by and the direction. -/
structure SortOrder where
  column : String
  descending : Bool
  deriving DecidableEq

namespace SortOrder

/-- The word for a direction. -/
def direction (o : SortOrder) : String :=
  if o.descending then "DESC" else "ASC"

/-- The order that a text denotes. -/
def ofText? (s : String) : Option SortOrder :=
  match words s with
  | [] => none
  | [column] => some ⟨column, false⟩
  | column :: second :: _ => some ⟨column, upper second == "DESC"⟩

/-- The order of a request, which may leave it out. -/
def parse? (s : Option String) : Option SortOrder :=
  s.bind ofText?

@[simp] theorem parse?_none : parse? none = none := rfl

/-- One column, or one column and one of the two directions. -/
def isStrict (s : String) : Bool :=
  match words s with
  | [_] => true
  | [_, second] => upper second == "ASC" || upper second == "DESC"
  | _ => false

end SortOrder

end TableQuery
