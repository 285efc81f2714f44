import TableQuery.Request.Basic
import TableQuery.Text.Split

/-!
# Joins in one word

A join is written as its table and the two columns with colons between them, none of
the three empty.
-/

namespace TableQuery.JoinSpec

open TableQuery.Text

/-- The join that a text denotes. -/
def ofText? (s : String) : Option JoinSpec :=
  match splitOn ':' s with
  | [table, left, right] =>
    if table = "" ∨ left = "" ∨ right = "" then none else some ⟨table, left, right⟩
  | _ => none

/-- The wording for a text that denotes no join. -/
def refusal (s : String) : String :=
  "Join must be TABLE:LEFT:RIGHT, got '" ++ s ++ "'"

end TableQuery.JoinSpec
