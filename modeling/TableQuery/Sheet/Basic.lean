import TableQuery.Sheet.Book
import TableQuery.Sheet.Cell
import TableQuery.Sheet.TableName
import TableQuery.Sheet.Title

/-!
# Sheets of workbook files

A sheet has a title, cells, tables and column widths. A written sheet has a bold
header, a table over the written range when there is a header, and columns as wide as
their longest text within bounds. Columns have at most three letters, and the number of
rows is bounded; a larger sheet is refused.
-/

namespace TableQuery

open TableQuery.Text

/-- A formatted range of a sheet. -/
structure SheetTable where
  name : String
  range : String
  style : String
  deriving DecidableEq

/-- A sheet of a workbook file. Absent cells are `none`. -/
structure Sheet where
  title : String
  rows : List (List (Option Cell))
  tables : List SheetTable := []
  widths : List Nat := []

namespace Sheet

/-- The style of written tables. -/
def tableStyle : String := "TableStyleMedium2"

/-- The least width of a written column. -/
def minWidth : Nat := 8

/-- The greatest width of a written column. -/
def maxWidth : Nat := 60

/-- The cells of a sheet as they are read. -/
def grid (s : Sheet) : Grid :=
  s.rows.map fun row => row.map fun cell =>
    match cell with
    | some c => Cell.shown c.value
    | none => .null

/-- A cell as it is kept when its file is written again: an empty cell without
formatting is dropped. -/
def keepCell : Option Cell → Option Cell
  | some c =>
    match c.value, c.bold with
    | .null, false => none
    | _, _ => some c
  | none => none

/-- A sheet as it is kept when its file is written again. -/
def kept (s : Sheet) : Sheet :=
  { s with rows := s.rows.map fun row => row.map keepCell }

/-- The letters of a column counted from one, the last letter first. -/
def columnLettersFrom : Nat → Nat → List Char
  | 0, _ => []
  | fuel + 1, n =>
    if n = 0 then []
    else Char.ofNat (65 + (n - 1) % 26) :: columnLettersFrom fuel ((n - 1) / 26)

/-- The last column, whose letters are `ZZZ`. -/
def maxColumns : Nat := 18278

/-- The letters of a column counted from one. -/
def columnLetters (n : Nat) : Except Failure String :=
  if n = 0 ∨ maxColumns < n then .error (.columnInvalid n)
  else .ok (String.ofList (columnLettersFrom n n).reverse)

/-- The range from the first cell to a column and a row. -/
def rangeTo (column row : Nat) : Except Failure String :=
  (columnLetters column).map fun letters => "A1:" ++ letters ++ row.repr

/-- The table over a written range, none when there is no header. -/
def tablesOver (takenNames : List String) (title : String) (t : TextTable) :
    Except Failure (List SheetTable) :=
  if t.header.isEmpty then .ok []
  else
    (rangeTo t.header.length (t.rows.length + 1)).map fun range =>
      [⟨TableName.choose takenNames title, range, tableStyle⟩]

/-- The width of a column whose longest text has the given length. -/
def widthFor (length : Nat) : Nat :=
  min (max (length + 2) minWidth) maxWidth

/-- The longest text of each column of a list of rows. -/
def longest : List (List String) → List Nat
  | [] => []
  | row :: rows =>
    let lengths := row.map String.length
    let others := longest rows
    (List.range (max lengths.length others.length)).map fun i =>
      max (lengths.getD i 0) (others.getD i 0)

/-- The widths of the columns of a table. -/
def widthsOf (t : TextTable) : Except Failure (List Nat) :=
  let lengths := longest (t.header :: t.rows)
  if maxColumns < lengths.length then .error (.columnInvalid (maxColumns + 1))
  else .ok (lengths.map widthFor)

/-- A text written into a cell. -/
def writeText (bold : Bool) (s : String) : Except Failure (Option Cell) := do
  let value ← Cell.accept (.text s)
  let value ← Cell.written value
  return some ⟨value, bold⟩

/-- The last row. -/
def maxRows : Nat := 1048576

/-- The texts of a row below the header, counted from zero, written into cells. -/
def writeTexts (texts : List String) (i : Nat) : Except Failure (List (Option Cell)) :=
  if maxRows < i + 2 ∧ texts ≠ [] then .error (.rowInvalid (i + 2))
  else texts.mapM (writeText false)

/-- A sheet with a header and rows of texts. -/
def write (title : String) (takenNames : List String) (t : TextTable) : Except Failure Sheet := do
  let header ← t.header.mapM (writeText true)
  let rows ← t.rows.zipIdx.mapM fun (texts, i) => writeTexts texts i
  let tables ← tablesOver takenNames title t
  let widths ← widthsOf t
  return { title, rows := header :: rows, tables, widths }

/-- A row of stored data written into cells. Missing values leave cells absent. -/
def acceptRow (row : List Datum) : Except Failure (List Datum) :=
  row.mapM Cell.accept

/-- A row of accepted data as a file keeps it. -/
def writeRow (row : List Datum) : Except Failure (List (Option Cell)) :=
  row.zipIdx.mapM fun (d, i) =>
    match d with
    | .null => .ok none
    | d =>
      if maxColumns ≤ i then .error (.columnInvalid (i + 1))
      else (Cell.written d).map fun value => some ⟨value, false⟩

/-- The number of columns up to the last present cell of a row. -/
def rowExtent (row : List (Option Cell)) : Nat :=
  (row.reverse.dropWhile Option.isNone).length

/-- The cells up to the last row and the last column with a present cell, none of
them when no cell is present. -/
def present (s : Sheet) : List (List (Option Cell)) :=
  let width := (s.rows.map rowExtent).foldl max 0
  let height := (s.rows.reverse.dropWhile fun row => rowExtent row == 0).length
  (s.rows.take height).map fun row =>
    let cells := row.take width
    cells ++ List.replicate (width - cells.length) none

/-- Which cells of the first row are bold, one flag at least. -/
def boldFlags (s : Sheet) : List Bool :=
  match s.present with
  | [] => [false]
  | row :: _ => row.map fun cell => (cell.map Cell.bold).getD false

end Sheet

end TableQuery
