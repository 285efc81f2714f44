import TableQuery.Datum

/-!
# The used range of a grid

A grid is a list of rows of cells, not all of one length. Its used range starts at
the leftmost used column and holds the used rows; the first of them is the header,
which ends at its last cell that is not blank and gives the width.
-/

namespace TableQuery

/-- The cells of a sheet, row by row. -/
abbrev Grid := List (List Datum)

/-- A header and rows of texts. -/
structure TextTable where
  header : List String
  rows : List (List String)
  deriving DecidableEq

namespace Grid

/-- A row with a cell that is not blank. -/
def isUsedRow (row : List Datum) : Bool :=
  row.any fun cell => !cell.isBlank

/-- The rows that are used. -/
def usedRows (g : Grid) : Grid :=
  g.filter isUsedRow

@[simp] theorem usedRows_nil : usedRows [] = [] := rfl

theorem usedRows_cons (row : List Datum) (g : Grid) :
    usedRows (row :: g) = if isUsedRow row then row :: usedRows g else usedRows g := by
  simp [usedRows, List.filter_cons]

theorem usedRows_append (g h : Grid) : usedRows (g ++ h) = usedRows g ++ usedRows h := by
  simp [usedRows]

/-- The column of the first cell of a row that is not blank. -/
def firstUsed (row : List Datum) : Nat :=
  row.findIdx fun cell => !cell.isBlank

/-- The leftmost used column of a row and the rows after it. -/
def leftmost (row : List Datum) : Grid → Nat
  | [] => firstUsed row
  | next :: rows => min (firstUsed row) (leftmost next rows)

/-- A row without the blank cells at its end. -/
def dropBlankEnd (row : List Datum) : List Datum :=
  (row.reverse.dropWhile Datum.isBlank).reverse

/-- The texts of `width` cells of a row from a column on; a missing cell has an empty
text. -/
def window (start width : Nat) (row : List Datum) : List String :=
  let cells := ((row.drop start).take width).map Datum.cellText
  cells ++ List.replicate (width - cells.length) ""

theorem length_window (start width : Nat) (row : List Datum) :
    (window start width row).length = width := by
  simp only [window, List.length_append, List.length_map, List.length_take, List.length_drop,
    List.length_replicate]
  omega

/-- The header and the rows of a grid, in the order of the grid. -/
def contents (g : Grid) : TextTable :=
  match usedRows g with
  | [] => ⟨[], []⟩
  | first :: rest =>
    let start := leftmost first rest
    let header := (dropBlankEnd (first.drop start)).map Datum.cellText
    ⟨header, rest.map (window start header.length)⟩

@[simp] theorem contents_nil : contents [] = ⟨[], []⟩ := rfl

theorem contents_eq_of_usedRows {g h : Grid} (e : usedRows g = usedRows h) :
    contents g = contents h := by
  simp [contents, e]

end Grid

end TableQuery
