import TableQuery.Report.Column
import TableQuery.ResultSet

/-!
# Reports

A report shows rows as lines of text under a line of column names. Every column is
aligned to the right and as wide as its longest text; columns stand one blank apart,
and a column of numbers has one blank more in front of its name.
-/

namespace TableQuery.Report

/-- A text with blanks in front up to a width. -/
def alignRight (width : Nat) (s : String) : String :=
  String.ofList (List.replicate (width - s.length) ' ' ++ s.toList)

/-- The blanks at the start of a text. -/
def blanksAtStart (s : String) : Nat :=
  (s.toList.takeWhile (· == ' ')).length

/-- Names with escapes, without the blanks that all of them start with. -/
def headings (names : List String) : List String :=
  let shown := names.map escaped
  match shown.map blanksAtStart with
  | [] => []
  | n :: ns =>
    let common := ns.foldl min n
    shown.map fun s => String.ofList (s.toList.drop common)

/-- A column as lines of one width: its heading and its cells. -/
def columnLines (heading : String) (cells : List Primitive) : List String :=
  let kind := kindOf cells
  let lines := (if kind = .mixed then heading else " " ++ heading) :: cellTexts kind cells
  let width := (lines.map String.length).foldl max 0
  lines.map (alignRight width)

/-- Lines side by side, one blank between them. -/
def beside : List (List String) → List String
  | [] => []
  | [lines] => lines
  | lines :: columns => List.zipWith (fun a b => a ++ " " ++ b) lines (beside columns)

/-- The numbers of that many rows, the first hundred of them. -/
def rowNumbers (count : Nat) : String :=
  let shown := (List.range (min count 100)).map Nat.repr
  String.intercalate ", " (if 100 < count then shown ++ ["..."] else shown)

/-- The report of rows without columns. -/
def emptyText (count : Nat) : String :=
  "Empty DataFrame\nColumns: []\nIndex: [" ++ rowNumbers count ++ "]"

/-- The cell of a record under a column, an undefined number when there is none. -/
def cellOf (column : String) (record : List (String × Primitive)) : Primitive :=
  (record.lookup column).getD (.float .nan)

/-- The report of a result. -/
def text (r : ResultSet) : String :=
  let columns := r.allColumns
  if columns.isEmpty then emptyText r.rows.length
  else
    let records := r.records
    let lines := List.zipWith columnLines (headings columns)
      (columns.map fun c => records.map (cellOf c))
    String.intercalate "\n" (beside lines)

end TableQuery.Report
