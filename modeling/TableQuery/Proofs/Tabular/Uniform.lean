import TableQuery.Proofs.Sheet.Loading
import TableQuery.Proofs.Sheet.Writing
import TableQuery.Proofs.Tabular.Stages

/-!
# Answers are uniform

All rows of the answer to a query have the same columns, none of them twice. The sheet that an
export writes therefore has as many cells in each row as in its header, and every cell holds the
words of the value that its row has in the column whose name the cell above it in the header holds.
-/

namespace TableQuery

/-- The columns of a result are those of each of its rows, and none of them is there twice. -/
structure ResultSet.IsUniform (result : ResultSet) : Prop where
  nodup : result.columns.Nodup
  columns_eq : ∀ row ∈ result.rows, row.columns = result.columns

theorem ResultSet.nodup_columns (result : ResultSet) : result.columns.Nodup := by
  rw [columns]
  split
  · exact List.nodup_nil
  · next row _ _ => exact row.nodup

theorem Rows.Uniform.haveColumns {result : ResultSet} (h : Rows.Uniform result.rows) :
    Rows.HaveColumns result.columns result.rows := by
  obtain ⟨columns, hcolumns⟩ := h
  rw [ResultSet.columns]
  cases hrows : result.rows with
  | nil => simp [Rows.HaveColumns]
  | cons row rows =>
      rw [hrows] at hcolumns
      dsimp only
      rw [hcolumns row List.mem_cons_self]
      exact hcolumns

namespace Sheet

/-- Cells of a row under a header, as many as it has, with the words of the values that the row
has in the columns of the header. -/
structure ShowsRow (columns : List String) (header : List (Option Cell)) (row : Row)
    (cells : List (Option Cell)) : Prop where
  length_eq : cells.length = header.length
  under : List.Forall₂ (fun column cell =>
    ∃ value, row.get? column = some value ∧ Cell.Holds false value.words cell) columns cells

/-- A sheet of a header that holds the names of the columns, and rows under it. -/
def Shows (columns : List String) (rows : List Row) (s : Sheet) : Prop :=
  ∃ header body, s.rows = header :: body ∧ RowHolds true columns header ∧
    List.Forall₂ (ShowsRow columns header) rows body

theorem showsRow_of_rowHolds {header : List (Option Cell)} {row : Row}
    {cells : List (Option Cell)} (hheader : RowHolds true row.columns header)
    (h : RowHolds false (row.values.map Value.words) cells) :
    ShowsRow row.columns header row cells := by
  rw [RowHolds, Row.values, List.map_map, List.forall₂_map_left_iff] at h
  constructor
  case length_eq =>
    rw [← hheader.length_eq, Row.columns, List.length_map, h.length_eq]
  case under =>
    have hfound : ∀ cell ∈ row.cells, row.get? cell.1 = some cell.2 := fun _ => Row.get?_of_mem
    rw [Row.columns, List.forall₂_map_left_iff]
    refine ((List.forall₂_and_left _ _).2 ⟨hfound, h⟩).imp ?_
    rintro cell c ⟨hget, hholds⟩
    exact ⟨cell.2, hget, hholds⟩

theorem shows_of_write {title : String} {names columns : List String} {rows : List Row}
    {t : TextTable} {s : Sheet} (hcolumns : Rows.HaveColumns columns rows)
    (ht : Export.table? rows = some t) (h : write title names t = .ok s) :
    Shows columns rows s := by
  cases rows with
  | nil => cases ht
  | cons row rows =>
      cases ht
      obtain ⟨-, header, body, hrows, hheader, hbody⟩ := exists_of_write h
      rw [hcolumns row List.mem_cons_self] at hheader
      refine ⟨header, body, hrows, hheader, ?_⟩
      rw [List.forall₂_map_left_iff] at hbody
      refine ((List.forall₂_and_left _ _).2 ⟨hcolumns, hbody⟩).imp ?_
      rintro r cells ⟨rfl, hcells⟩
      exact showsRow_of_rowHolds hheader hcells

end Sheet

namespace Tabular

/-- A chain of joins keeps rows uniform: each join does. -/
theorem uniform_of_joinSheets {b : Book} {joins : List JoinSpec} {rows joined : List Row}
    (hrows : Rows.Uniform rows) (h : joinSheets b rows joins = .ok joined) :
    Rows.Uniform joined := by
  induction joins generalizing rows with
  | nil =>
      cases h
      exact hrows
  | cons j joins ih =>
      obtain ⟨right, next, hload, hjoin, hrest⟩ := exists_of_joinSheets_cons h
      obtain ⟨columns, hcolumns⟩ := hrows
      obtain ⟨rightColumns, hright⟩ := Book.uniform_of_load hload
      exact ih ⟨_, hcolumns.join hright hjoin⟩ hrest

theorem uniform_of_rows {deadline : Option Deadline} {b : Book} {r : Request} {rows : List Row}
    (h : Tabular.rows deadline b r = .ok rows) : Rows.Uniform rows := by
  obtain ⟨full, hfull, rfl⟩ := map_eq_ok_iff.1 h
  obtain ⟨base, joined, hload, hjoined, hordered⟩ := exists_of_fullRows hfull
  obtain ⟨columns, hcolumns⟩ := uniform_of_joinSheets (Book.uniform_of_load hload) hjoined
  exact ⟨_, (((hcolumns.filter r.filter).order hordered).project r.projection).page _ _⟩

/-- All rows of an answer have the columns of the answer, and an export writes each value under
the cell of its own column. -/
theorem run_isUniform {deadline : Option Deadline} {w : Workbook} {r : Request} {result : ResultSet}
    {written : Option Workbook} (h : run deadline w r = .ok (result, written)) :
    result.IsUniform ∧ ∀ w', written = some w' →
      ∃ others s, w'.sheets = others ++ [s] ∧ s.Shows result.columns result.rows := by
  obtain ⟨hrows, -, hwritten⟩ := run_eq_ok_iff.1 h
  have hcolumns : Rows.HaveColumns result.columns result.rows :=
    (uniform_of_rows hrows).haveColumns
  constructor
  · exact ⟨result.nodup_columns, hcolumns⟩
  · rintro w' rfl
    obtain ⟨name, t, ht, hreplace⟩ := exists_of_exportRows hwritten
    obtain ⟨title, s, -, hwrite, hsheets⟩ := Workbook.exists_of_replaceSheet hreplace
    exact ⟨_, s, hsheets, Sheet.shows_of_write hcolumns ht hwrite⟩

/-- Two sheets that share a column, with a short row and a key that occurs twice. -/
def shop : Workbook where
  sheets :=
    [{ title := "People"
       rows := [["id", "name"], ["1", "Ann"], ["2"], ["1", "Eve"]].map fun row =>
         row.map fun s => some ⟨.text s, false⟩ },
      { title := "Orders"
        rows := [["note", "id"], ["ink", "1"], ["", "2"], ["pen", "1"]].map fun row =>
          row.map fun s => some ⟨.text s, false⟩ }]

/-- A request that joins both, orders by a column that it hides, and exports. -/
def shopRequest : Request where
  engine := "tabular"
  table := "people"
  joins := [⟨"orders", "id", "id"⟩]
  orderBy := some "name desc"
  columns := some ["note", "id", "price"]
  exportSheet := some "Orders"

theorem run_shop_isUniform :
    ∃ result w', run none shop shopRequest = .ok (result, some w') ∧
      result.columns = ["id", "note"] ∧ result.rows.length = 5 ∧ result.IsUniform ∧
      ∃ others s, w'.sheets = others ++ [s] ∧ s.Shows result.columns result.rows := by
  have hanswer : ∃ result w', run none shop shopRequest = .ok (result, some w') ∧
      result.columns = ["id", "note"] ∧ result.rows.length = 5 := ⟨_, _, rfl, rfl, rfl⟩
  obtain ⟨result, w', hrun, hcolumns, hlength⟩ := hanswer
  obtain ⟨huniform, hexport⟩ := run_isUniform hrun
  exact ⟨result, w', hrun, hcolumns, hlength, huniform, hexport w' rfl⟩

end Tabular

end TableQuery
