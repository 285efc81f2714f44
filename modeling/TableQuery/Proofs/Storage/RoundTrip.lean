import TableQuery.Proofs.Sheet.Loading
import TableQuery.Proofs.Sheet.Writing
import TableQuery.Proofs.Storage.Runs
import TableQuery.Proofs.Text.Casing

/-!
# Written sheets are read back

A table that replaces a sheet is what the sheet of that name is read as from then on, without the
rows that hold nothing but blank texts. Only a table with more columns or rows than a sheet can
have is refused. The new sheet takes exactly the wanted title: titles are numbered by their lower
case, and no sheet is left whose title agrees with the name in case folding.
-/

namespace TableQuery

open TableQuery.Text

namespace Title

/-- A name that can be the title of a sheet in a file. -/
structure IsValid (name : String) : Prop where
  nonempty : name ≠ ""
  allowed : ∀ c ∈ name.toList, c ∉ forbidden
  markup : OfMarkup name.toList

theorem unused_eq_self {titles : List String} {name : String}
    (h : ∀ title ∈ titles, sameFold title name = false) : unused titles name = name := by
  rw [unused, if_neg]
  rw [List.any_eq_true]
  rintro ⟨title, htitle, hlower⟩
  have hfold : fold title = fold name := fold_eq_of_lower_eq (beq_iff_eq.1 hlower)
  exact absurd ((sameFold_iff title name).2 hfold) (by simp [h title htitle])

theorem choose_eq_ok {titles : List String} {name : String} (hname : IsValid name)
    (h : ∀ title ∈ titles, sameFold title name = false) : choose titles name = .ok name := by
  have hfind : name.toList.find? forbidden.contains = none := by
    rw [List.find?_eq_none]
    intro c hc
    simpa using hname.allowed c hc
  rw [choose, if_neg hname.nonempty]
  simp only [hfind, unused_eq_self h]

end Title

/-- A table that a sheet gives back: distinct names, the first and the last of them not blank,
over rows of as many texts, all of them texts that a file keeps. -/
structure TextTable.IsStored (t : TextTable) : Prop where
  nodup : t.header.Nodup
  first_filled : ∃ column ∈ t.header.head?, isBlankText column = false
  last_filled : ∃ column ∈ t.header.getLast?, isBlankText column = false
  length_eq : ∀ row ∈ t.rows, row.length = t.header.length
  kept : ∀ texts ∈ t.header :: t.rows, ∀ s ∈ texts, Cell.IsStored s

theorem TextTable.IsStored.header_ne_nil {t : TextTable} (h : t.IsStored) : t.header ≠ [] := by
  obtain ⟨column, hcolumn, -⟩ := h.first_filled
  rintro hnil
  rw [hnil] at hcolumn
  cases hcolumn

namespace Workbook

variable {w : Workbook} {name : String} {t : TextTable}

theorem sameFold_dropMatching {sheets : List Sheet}
    (h : (sheets.filter fun s => sameFold s.title name).length ≤ 1) :
    ∀ s ∈ dropMatching name sheets, sameFold s.title name = false := by
  induction sheets with
  | nil => simp [dropMatching]
  | cons s sheets ih =>
      rw [dropMatching]
      rw [List.filter_cons] at h
      by_cases hs : sameFold s.title name = true
      · rw [if_pos hs, List.length_cons, Nat.succ_le_succ_iff, Nat.le_zero,
          List.length_eq_zero_iff, List.filter_eq_nil_iff] at h
        rw [if_pos hs]
        simpa using h
      · rw [if_neg hs] at h
        rw [if_neg hs, List.forall_mem_cons]
        exact ⟨by simpa using hs, ih h⟩

theorem choose_dropMatching (hname : Title.IsValid name)
    (hunique : (w.sheets.filter fun s => sameFold s.title name).length ≤ 1) :
    Title.choose ((dropMatching name w.sheets).map Sheet.title) name = .ok name := by
  apply Title.choose_eq_ok hname
  intro title htitle
  obtain ⟨s, hs, rfl⟩ := List.mem_map.1 htitle
  exact sameFold_dropMatching hunique s hs

/-- A stored table replaces the sheet of a valid name unless it is too large. -/
theorem exists_replaceSheet_iff (hname : Title.IsValid name)
    (hunique : (w.sheets.filter fun s => sameFold s.title name).length ≤ 1) (ht : t.IsStored) :
    (∃ w', w.replaceSheet name t = .ok w') ↔
      t.header.length ≤ Sheet.maxColumns ∧ t.rows.length < Sheet.maxRows := by
  rw [← Sheet.exists_write_iff ht.kept ht.header_ne_nil ht.length_eq name
    (Workbook.mk (dropMatching name w.sheets)).tableNames]
  have htitle := choose_dropMatching hname hunique
  constructor
  · rintro ⟨w', h⟩
    obtain ⟨title, sheet, htitle', hwrite, -⟩ := exists_of_replaceSheet h
    obtain rfl := Except.ok.inj (htitle.symm.trans htitle')
    exact ⟨sheet, hwrite⟩
  · rintro ⟨sheet, hwrite⟩
    exact ⟨_, bind_eq_ok_iff.2 ⟨name, htitle, bind_eq_ok_iff.2 ⟨sheet, hwrite, rfl⟩⟩⟩

/-- The sheet that a stored table was written to is read as the table. -/
theorem read_of_isStored (hname : Title.IsValid name)
    (hunique : (w.sheets.filter fun s => sameFold s.title name).length ≤ 1) (ht : t.IsStored)
    {w' : Workbook} (h : w.replaceSheet name t = .ok w') :
    w'.book.read name = .ok ⟨t.header, t.rows.filter TextTable.isFilled⟩ := by
  obtain ⟨title, sheet, htitle, hwrite, hsheets⟩ := exists_of_replaceSheet h
  obtain rfl := Except.ok.inj ((choose_dropMatching hname hunique).symm.trans htitle)
  have hnone : ((dropMatching name w.sheets).map Sheet.kept).find?
      (fun s => sameFold s.title name) = none := by
    rw [List.find?_map, Option.map_eq_none_iff, List.find?_eq_none]
    intro s hs
    have hunmatched : sameFold s.kept.title name = false := sameFold_dropMatching hunique s hs
    simp [hunmatched]
  have hsame : sameFold sheet.title name = true := by
    rw [(Sheet.exists_of_write hwrite).1, sameFold_iff]
  have hfind : w'.sheets.find? (fun s => sameFold s.title name) = some sheet := by
    rw [hsheets, List.find?_append, hnone, Option.none_or, List.find?_singleton, if_pos hsame]
  rw [Book.read, book, List.find?_map]
  simp only [Function.comp_def, hfind, Option.map_some, Sheet.grid_of_write ht.kept hwrite]
  rw [Grid.contents_map Cell.showsTexts_ofText ht.first_filled ht.last_filled ht.length_eq]

end Workbook

namespace WorkbookFile

variable {files : Files} {path : Option String} {w : Workbook} {name : String} {t : TextTable}

/-- What is written is what is read, and all that fits into the columns and below the first row of
a sheet is written. -/
theorem read_replaceSheet (hopen : openFile files path = .ok w) (hname : Title.IsValid name)
    (hunique : (w.sheets.filter fun s => sameFold s.title name).length ≤ 1) (ht : t.IsStored) :
    ((∃ files', replaceSheet files path name t = .ok files') ↔
      t.header.length ≤ Sheet.maxColumns ∧ t.rows.length < Sheet.maxRows) ∧
    ∀ files', replaceSheet files path name t = .ok files' →
      ∃ w', openFile files' path = .ok w' ∧
        w'.book.read name = .ok ⟨t.header, t.rows.filter TextTable.isFilled⟩ ∧
        ∃ rows, w'.book.load name = .ok rows ∧ rows.map Row.cells =
          (t.rows.filter TextTable.isFilled).map fun texts =>
            t.header.zip (texts.map .text) := by
  rw [replaceSheet_of_openFile hopen]
  constructor
  · rw [← Workbook.exists_replaceSheet_iff hname hunique ht]
    constructor
    · rintro ⟨files', h⟩
      obtain ⟨w', hreplace, -⟩ := map_eq_ok_iff.1 h
      exact ⟨w', hreplace⟩
    · rintro ⟨w', hreplace⟩
      exact ⟨_, map_eq_ok_iff.2 ⟨w', hreplace, rfl⟩⟩
  · intro files' h
    obtain ⟨w', hreplace, rfl⟩ := map_eq_ok_iff.1 h
    have hread := Workbook.read_of_isStored hname hunique ht hreplace
    refine ⟨w', Staging.openFile_save hopen, hread, _, Book.load_of_read hread ht.nodup, ?_⟩
    rw [List.map_map]
    apply List.map_congr_left
    intro texts htexts
    exact TextTable.cells_rowOf ht.nodup (ht.length_eq texts (List.mem_filter.1 htexts).1)

/-- A workbook of one sheet. -/
def notebook : Workbook := ⟨[{ title := "STRASSE", rows := [[some ⟨.text "old", false⟩]] }]⟩

/-- A table with a column without a name, a blank row and an empty text. -/
def notes : TextTable :=
  ⟨["day", "", "note"], [["1", "", "=" ], [" ", "", ""], ["", "x", " b\n"]]⟩

theorem isStored_notes : notes.IsStored where
  nodup := by decide
  first_filled := ⟨"day", rfl, by decide⟩
  last_filled := ⟨"note", rfl, by decide⟩
  length_eq := by decide
  kept := by decide

theorem read_replaceSheet_notes :
    ∃ files' w', replaceSheet (save {} (some "notes.xlsx") notebook) (some "notes.xlsx") "straße"
        notes = .ok files' ∧ openFile files' (some "notes.xlsx") = .ok w' ∧
      w'.book.read "straße" =
        .ok ⟨["day", "", "note"], [["1", "", "="], ["", "x", " b\n"]]⟩ ∧
      ∃ rows, w'.book.load "straße" = .ok rows ∧ rows.map Row.cells =
        [[("day", .text "1"), ("", .text ""), ("note", .text "=")],
         [("day", .text ""), ("", .text "x"), ("note", .text " b\n")]] := by
  have hopen : openFile (save {} (some "notes.xlsx") notebook) (some "notes.xlsx") =
      .ok notebook := rfl
  have hname : Title.IsValid "straße" := ⟨by decide, by simp [Title.forbidden], by decide⟩
  have hunique : (notebook.sheets.filter fun s => sameFold s.title "straße").length ≤ 1 := by
    decide
  obtain ⟨hiff, hread⟩ := read_replaceSheet hopen hname hunique isStored_notes
  obtain ⟨files', hreplace⟩ := hiff.2 (by decide)
  obtain ⟨w', hwritten⟩ := hread files' hreplace
  exact ⟨files', w', hreplace, hwritten⟩

end WorkbookFile

end TableQuery
