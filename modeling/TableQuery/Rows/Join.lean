import TableQuery.Row

/-!
# Joining rows

Two lists of rows are joined on equal values of one column each. The right rows are
filed under their keys once, and every left row is merged with the rows filed under
its own key. A missing value is no key.
-/

namespace TableQuery

/-- The sides of a join. -/
inductive Side
  | left
  | right
  deriving DecidableEq

/-- A row of one side lacks the column that it is joined on. -/
structure MissingKey where
  side : Side
  column : String
  deriving DecidableEq

/-- Rows under the values of one column, the values in the order of their first
appearance. -/
abbrev KeyIndex := List (Value × List Row)

namespace KeyIndex

/-- Files a row under a key, after the rows that are there. -/
def insert (key : Value) (row : Row) : KeyIndex → KeyIndex
  | [] => [(key, [row])]
  | (k, rows) :: index =>
    if k.same key then (k, rows ++ [row]) :: index else (k, rows) :: insert key row index

/-- The rows under a key. -/
def find (key : Value) : KeyIndex → List Row
  | [] => []
  | (k, rows) :: index => if k.same key then rows else find key index

end KeyIndex

namespace Rows

/-- Files the right rows under their keys. -/
def fileUnder (column : String) : KeyIndex → List Row → Except MissingKey KeyIndex
  | index, [] => .ok index
  | index, row :: rows =>
    match row.get? column with
    | none => .error ⟨.right, column⟩
    | some key =>
      fileUnder column (if key.isNull then index else KeyIndex.insert key row index) rows

/-- Merges the left rows with the rows under their keys. -/
def mergeMatches (column : String) (index : KeyIndex) :
    List Row → Except MissingKey (List Row)
  | [] => .ok []
  | row :: rows =>
    match row.get? column with
    | none => .error ⟨.left, column⟩
    | some key =>
      (mergeMatches column index rows).map fun joined =>
        (KeyIndex.find key index).map row.merge ++ joined

/-- The pairs of a left and a right row with equal keys, merged; left order first,
then right order. Without left rows no key is looked at. -/
def join (left right : List Row) (leftColumn rightColumn : String) :
    Except MissingKey (List Row) :=
  if left.isEmpty then .ok []
  else
    match fileUnder rightColumn [] right with
    | .error e => .error e
    | .ok index => mergeMatches leftColumn index left

@[simp] theorem join_nil (right : List Row) (leftColumn rightColumn : String) :
    join [] right leftColumn rightColumn = .ok [] := rfl

end Rows

end TableQuery
