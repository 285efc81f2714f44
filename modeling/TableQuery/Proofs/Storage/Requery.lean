import TableQuery.Proofs.Storage.Export
import TableQuery.Proofs.Storage.Replaced
import TableQuery.Proofs.Tabular.Texts

/-!
# Exported answers are queried

An answer that was exported is a sheet, and a query of that sheet finds what is read from it. These
are the records of the answer, apart from the blank ones, when the sheet is used from its first
column on and up to its last name. In every other case the records that are found are not those of
the answer.
-/

namespace TableQuery

open TableQuery.Text

/-- A request for all rows of a sheet. -/
def Request.whole (name : String) : Request where
  engine := "tabular"
  table := name

/-- A row with a value that is not blank. -/
def Row.isFilled (r : Row) : Bool :=
  TextTable.isFilled r.texts

/-- A result as it is exported. -/
def ResultSet.table (result : ResultSet) : TextTable :=
  ⟨result.columns, result.rows.map Row.texts⟩

namespace ResultSet

variable {result : ResultSet}

theorem table?_rows (h : result.rows ≠ []) : Export.table? result.rows = some result.table := by
  rw [table, columns]
  cases hrows : result.rows with
  | nil => exact absurd hrows h
  | cons row rows => rfl

/-- The records of a result have its columns as their names. -/
theorem columns_eq_of_records {other : ResultSet} (h : other.records = result.records) :
    other.columns = result.columns := by
  have hnames : ∀ r : ResultSet,
      r.columns = ((r.records.map (List.map Prod.fst)).head?).getD [] := by
    intro r
    rw [columns, records]
    cases r.rows with
    | nil => rfl
    | cons row rows =>
        simp only [List.map_cons, List.head?_cons, Option.getD_some]
        rw [Row.record, List.map_map, Row.columns]
        rfl
  rw [hnames, h, ← hnames]

/-- A result of texts is given by its table. -/
theorem map_rowOf_texts (hcolumns : Rows.HaveColumns result.columns result.rows)
    (htexts : Rows.OfTexts result.rows) {rows : List Row} (hrows : rows ⊆ result.rows) :
    (rows.map Row.texts).map (TextTable.rowOf result.columns) = rows := by
  conv => rhs; rw [← List.map_id rows]
  rw [List.map_map]
  apply List.map_congr_left
  intro row hrow
  have hrowOf := (htexts row (hrows hrow)).rowOf_texts
  rw [hcolumns row (hrows hrow)] at hrowOf
  exact hrowOf

theorem filter_map_texts (rows : List Row) :
    (rows.map Row.texts).filter TextTable.isFilled = (rows.filter Row.isFilled).map Row.texts :=
  List.filter_map

end ResultSet

theorem Book.load_eq_ok_iff {b : Book} {name : String} {t : TextTable} (h : b.read name = .ok t)
    {rows : List Row} :
    b.load name = .ok rows ↔ t.header.Nodup ∧ rows = t.rows.map (TextTable.rowOf t.header) := by
  constructor
  · intro hload
    have hnodup : t.header.Nodup := by
      rw [load, h] at hload
      dsimp only at hload
      rw [TextTable.toRows] at hload
      split at hload
      · cases hload
      · next hnone => exact (nodup_of_firstRepeated? hnone).1
    rw [load_of_read h hnodup] at hload
    exact ⟨hnodup, (Except.ok.inj hload).symm⟩
  · rintro ⟨hnodup, rfl⟩
    exact load_of_read h hnodup

/-- A request for all rows finds the rows that are loaded. -/
theorem Tabular.rows_whole (b : Book) (name : String) :
    Tabular.rows none b (.whole name) =
      match b.load name with
      | .error e => .error (.query e)
      | .ok rows => .ok rows := by
  have hview : view (.whole name) = id := by
    funext rows
    simp [view, Request.whole, Request.projection, Rows.page, slice]
  rw [Tabular.rows, hview, fullRows]
  simp only [Request.whole]
  cases b.load name with
  | error e => rfl
  | ok rows => rfl

/-- The sheet of stored texts is read as the contents of their cells. -/
theorem Workbook.read_of_replaceSheet {w w' : Workbook} {name : String} {t : TextTable}
    (hname : name ≠ "") (h : w.replaceSheet name t = .ok w')
    (hunique : (w.matching name).length ≤ 1)
    (hkept : ∀ texts ∈ t.header :: t.rows, ∀ s ∈ texts, Cell.IsStored s) :
    w'.book.read name =
      .ok (Grid.contents ((t.header :: t.rows).map (List.map Cell.ofText))) := by
  obtain ⟨s, names, hwrite, hs⟩ := Workbook.exists_replaced hname h hunique
  rw [hs.read_eq, Sheet.grid_of_write hkept hwrite]

namespace WorkbookFile

variable {deadline : Option Deadline} {files after : Files} {path : Option String} {w : Workbook}
  {r : Request} {name : String} {result : ResultSet}

theorem query_whole_eq_ok_iff {again : ResultSet} {t : TextTable}
    (hopen : openFile files path = .ok w) (hread : w.book.read name = .ok t) :
    query none files path (.whole name) = .ok (again, files) ↔
      t.header.Nodup ∧ again = ⟨t.rows.map (TextTable.rowOf t.header), []⟩ := by
  have hrows := Tabular.rows_whole w.book name
  cases hload : w.book.load name with
  | error e =>
      rw [hload] at hrows
      rw [query_of_refused hopen hrows]
      constructor
      · intro h
        cases h
      · rintro ⟨hnodup, -⟩
        rw [(Book.load_eq_ok_iff hread).2 ⟨hnodup, rfl⟩] at hload
        cases hload
  | ok rows =>
      obtain ⟨hnodup, rfl⟩ := (Book.load_eq_ok_iff hread).1 hload
      rw [hload] at hrows
      have hnone : ∀ rows, Tabular.exportRows w (.whole name) rows = {} := fun _ => rfl
      rw [query_of_rows hopen hrows, hnone]
      simp only [Option.map_none, Option.getD_none, Except.ok.injEq, Prod.mk.injEq, and_true]
      exact ⟨fun h => ⟨hnodup, h.symm⟩, fun h => h.2.symm⟩

/-- An answer that was exported without a warning replaced the sheet. -/
theorem replaceSheet_of_query (hopen : openFile files path = .ok w)
    (hquery : query deadline files path r = .ok (result, after))
    (hexports : Exports r result.rows name result.table) (hwarnings : result.warnings = []) :
    Tabular.rows deadline w.book r = .ok result.rows ∧
      ∃ w', w.replaceSheet name result.table = .ok w' ∧ openFile after path = .ok w' := by
  rw [query, hopen] at hquery
  dsimp only at hquery
  cases hrun : Tabular.run deadline w r with
  | error e =>
      rw [hrun] at hquery
      cases hquery
  | ok answer =>
      rw [hrun] at hquery
      cases hquery
      obtain ⟨hrows, hwarned, hwritten⟩ := Tabular.run_eq_ok_iff.1 hrun
      refine ⟨hrows, ?_⟩
      rw [exportRows_of_exports hexports] at hwarned hwritten
      cases hreplace : w.replaceSheet name answer.1.table with
      | error e =>
          rw [hreplace, hwarnings] at hwarned
          cases hwarned
      | ok w' =>
          rw [hreplace] at hwritten
          refine ⟨w', rfl, ?_⟩
          rw [← hwritten]
          exact Staging.openFile_save hopen

section Requery

variable (hopen : openFile files path = .ok w)
  (hread : w.book.read name =
    .ok (Grid.contents ((result.table.header :: result.table.rows).map (List.map Cell.ofText))))
include hopen hread

/-- The records that are not blank are found again. -/
theorem query_whole_of_spans (hcolumns : Rows.HaveColumns result.columns result.rows)
    (htexts : Rows.OfTexts result.rows) (h : result.table.Spans) :
    query none files path (.whole name) =
      .ok (⟨result.rows.filter Row.isFilled, []⟩, files) := by
  have hlength : ∀ texts ∈ result.table.rows, texts.length = result.table.header.length := by
    intro texts hmem
    obtain ⟨row, hrow, rfl⟩ := List.mem_map.1 hmem
    rw [Row.length_texts, hcolumns row hrow]
    rfl
  rw [Grid.contents_of_spans Cell.showsTexts_ofText h hlength] at hread
  rw [query_whole_eq_ok_iff hopen hread]
  refine ⟨result.nodup_columns, ?_⟩
  have hsub : result.rows.filter Row.isFilled ⊆ result.rows := List.filter_sublist.subset
  dsimp only [ResultSet.table]
  rw [ResultSet.filter_map_texts, ResultSet.map_rowOf_texts hcolumns htexts hsub]

/-- Where the records of a result are found again, as many rows are read as it has, under its own
columns. -/
theorem spans_of_query_whole (hrows : result.rows ≠ []) (hne : result.columns ≠ [])
    {again : ResultSet} (hagain : query none files path (.whole name) = .ok (again, files))
    (hrecords : again.records = result.records) :
    result.table.Spans ∧ ∀ row ∈ result.rows, row.isFilled = true := by
  obtain ⟨hnodup, rfl⟩ := (query_whole_eq_ok_iff hopen hread).1 hagain
  generalize ht : Grid.contents
    ((result.table.header :: result.table.rows).map (List.map Cell.ofText)) = t at *
  have hlength := congrArg List.length hrecords
  rw [ResultSet.records, ResultSet.records, List.length_map, List.length_map, List.length_map]
    at hlength
  have hne' : t.rows ≠ [] := by
    rintro hnil
    rw [hnil] at hlength
    exact hrows (List.length_eq_zero_iff.1 hlength.symm)
  have hheader : t.header = result.columns := by
    rw [← ResultSet.columns_eq_of_records hrecords]
    obtain ⟨texts, rest, hcons⟩ := List.exists_cons_of_ne_nil hne'
    have hwidth : texts.length = t.header.length := by
      rw [← ht]
      apply Grid.length_of_mem_contents
      rw [ht, hcons]
      exact List.mem_cons_self
    rw [ResultSet.columns, hcons, List.map_cons]
    exact (TextTable.columns_rowOf hnodup hwidth).symm
  have htable : result.table.rows ≠ [] := by
    rw [ResultSet.table]
    simpa using hrows
  have hspans := Grid.spans_of_contents Cell.showsTexts_ofText (t := result.table) hne htable
    (by rw [ht, hheader]; rfl) (by rw [ht, hlength, ResultSet.table, List.length_map])
  refine ⟨hspans.1, fun row hrow => hspans.2 _ (List.mem_map_of_mem hrow)⟩

end Requery

/-- An exported answer of texts that a file keeps, under a name that it can hold, leaves a workbook
that it can hold. The answer is found again by a query of its sheet exactly when no record is blank,
the last column has a name, and the first column has one or a value. Where the columns are so, just
the blank records are missing. -/
theorem requery_iff (hopen : openFile files path = .ok w)
    (hquery : query deadline files path r = .ok (result, after)) (hrows : result.rows ≠ [])
    (hcolumns : result.columns ≠ []) (hname : r.exportSheet = some name)
    (hblank : isBlankText name = false) (hmarkup : Text.OfMarkup name.toList)
    (hwarnings : result.warnings = [])
    (hunique : (w.matching name).length ≤ 1)
    (hkept : ∀ texts ∈ result.table.header :: result.table.rows, ∀ s ∈ texts, Cell.IsStored s) :
    (∃ w', openFile after path = .ok w' ∧ (w.OfMarkup → w'.OfMarkup)) ∧
    (result.table.Spans →
      ∃ again, query none after path (.whole name) = .ok (again, after) ∧ again.warnings = [] ∧
        again.records = (result.rows.filter Row.isFilled).map Row.record) ∧
    ((∃ again, query none after path (.whole name) = .ok (again, after) ∧
        again.records = result.records) ↔
      result.table.Spans ∧ ∀ row ∈ result.rows, row.isFilled = true) := by
  have hname' : name ≠ "" := by
    rintro rfl
    cases hblank
  have hexports : Exports r result.rows name result.table :=
    ⟨hname, hblank, ResultSet.table?_rows hrows⟩
  obtain ⟨hfound, w', hreplace, hopen'⟩ :=
    replaceSheet_of_query hopen hquery hexports hwarnings
  have hread := Workbook.read_of_replaceSheet hname' hreplace hunique hkept
  have huniform := (Tabular.uniform_of_rows hfound).haveColumns
  have htexts := Tabular.ofTexts_of_rows hfound
  have hspanned := query_whole_of_spans hopen' hread huniform htexts
  refine ⟨⟨w', hopen', fun hw => hw.replaceSheet hmarkup (TextTable.ofMarkup_of_isStored hkept)
    hreplace⟩, fun hspans => ⟨_, hspanned hspans, rfl, rfl⟩, ?_, ?_⟩
  · rintro ⟨again, hagain, hrecords⟩
    exact spans_of_query_whole hopen' hread hrows hcolumns hagain hrecords
  · rintro ⟨hspans, hfilled⟩
    refine ⟨_, hspanned hspans, ?_⟩
    rw [ResultSet.records, List.filter_eq_self.2 hfilled, ResultSet.records]

/-- A sheet whose first column has no name. -/
def register : Workbook where
  sheets :=
    [{ title := "People"
       rows := [["", "name", "note"], ["1", "Ann", "late"], ["2", "Bob", ""]].map fun row =>
         row.map fun s => some ⟨.text s, false⟩ }]

/-- A request that exports some columns of the sheet. -/
def registerRequest (columns : List String) : Request where
  engine := "tabular"
  table := "people"
  columns := some columns
  exportSheet := some "Notes"

theorem requery_iff_register :
    ∃ result after, query none (save {} (some "book.xlsx") register) (some "book.xlsx")
        (registerRequest ["note", ""]) = .ok (result, after) ∧
      result.records = [[("", .text "1"), ("note", .text "late")],
        [("", .text "2"), ("note", .text "")]] ∧
      ∃ again, query none after (some "book.xlsx") (.whole "Notes") = .ok (again, after) ∧
        again.records = result.records := by
  have hopen : openFile (save {} (some "book.xlsx") register) (some "book.xlsx") = .ok register :=
    rfl
  have hanswer : ∃ result after, query none (save {} (some "book.xlsx") register)
        (some "book.xlsx") (registerRequest ["note", ""]) = .ok (result, after) ∧
      result.records = [[("", .text "1"), ("note", .text "late")],
        [("", .text "2"), ("note", .text "")]] ∧ result.warnings = [] ∧
      result.columns = ["", "note"] ∧ result.rows.map Row.texts = [["1", "late"], ["2", ""]] ∧
      result.rows.all Row.isFilled = true := ⟨_, _, rfl, rfl, rfl, rfl, rfl, rfl⟩
  obtain ⟨result, after, hquery, hrecords, hwarnings, hcolumns, htexts, hfilled⟩ := hanswer
  have htable : result.table = ⟨["", "note"], [["1", "late"], ["2", ""]]⟩ := by
    rw [ResultSet.table, hcolumns, htexts]
  have hrows : result.rows ≠ [] := by
    rintro hnil
    rw [hnil] at htexts
    cases htexts
  have hkept : ∀ texts ∈ result.table.header :: result.table.rows, ∀ s ∈ texts,
      Cell.IsStored s := by
    rw [htable]
    decide
  have hspans : result.table.Spans := by
    rw [htable]
    exact ⟨⟨["1", "late"], by decide, "1", rfl, by decide⟩, ⟨"note", rfl, by decide⟩⟩
  have hiff := (requery_iff hopen hquery hrows (by rw [hcolumns]; decide) rfl (by decide)
    (by decide) hwarnings (by decide) hkept).2.2
  exact ⟨result, after, hquery, hrecords, hiff.2 ⟨hspans, List.all_eq_true.1 hfilled⟩⟩

/-- A record without a value is not found again. -/
theorem not_requery_register :
    ∃ result after, query none (save {} (some "book.xlsx") register) (some "book.xlsx")
        (registerRequest ["note"]) = .ok (result, after) ∧
      result.records = [[("note", .text "late")], [("note", .text "")]] ∧ result.warnings = [] ∧
      ¬∃ again rest, query none after (some "book.xlsx") (.whole "Notes") = .ok (again, rest) ∧
        again.records = result.records := by
  have hfound : ∃ result after found, query none (save {} (some "book.xlsx") register)
        (some "book.xlsx") (registerRequest ["note"]) = .ok (result, after) ∧
      result.records = [[("note", .text "late")], [("note", .text "")]] ∧ result.warnings = [] ∧
      query none after (some "book.xlsx") (.whole "Notes") = .ok (found, after) ∧
      found.records = [[("note", .text "late")]] := ⟨_, _, _, rfl, rfl, rfl, rfl, rfl⟩
  obtain ⟨result, after, found, hquery, hrecords, hwarnings, hagain, hfound⟩ := hfound
  refine ⟨result, after, hquery, hrecords, hwarnings, ?_⟩
  rintro ⟨again, rest, hagain', hsame⟩
  rw [hagain] at hagain'
  cases hagain'
  rw [hfound, hrecords] at hsame
  cases hsame

end WorkbookFile

end TableQuery
