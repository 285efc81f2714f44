import TableQuery.Storage.WorkbookFile

/-!
# Queries and their exports

An export is a side effect of a query. Whatever becomes of it, the query gives the rows that it
gives without it, or is refused for the reason for which it is refused without it. An export that
fails leaves the files as they were and one warning that says why.
-/

namespace TableQuery

open TableQuery.Text

/-- A request without its export. -/
def Request.withoutExport (r : Request) : Request :=
  { r with exportSheet := none }

namespace Export

theorem sheetName?_eq_some_iff {given : Option String} {name : String} :
    sheetName? given = some name ↔ given = some name ∧ isBlankText name = false := by
  cases given with
  | none => simp
  | some s =>
      rw [sheetName?]
      cases hblank : isBlankText s with
      | true =>
          rw [if_pos rfl]
          constructor
          · intro h
            cases h
          · rintro ⟨h, hname⟩
            cases h
            exact absurd (hblank.symm.trans hname) (by decide)
      | false =>
          rw [if_neg (by decide)]
          constructor
          · intro h
            cases h
            exact ⟨rfl, hblank⟩
          · exact And.left

end Export

namespace WorkbookFile

/-- What a request exports of its rows: the name of the sheet and the table that it gets. Nothing
is exported without rows, and a blank name counts as none. -/
def Exports (r : Request) (rows : List Row) (name : String) (t : TextTable) : Prop :=
  r.exportSheet = some name ∧ isBlankText name = false ∧ Export.table? rows = some t

/-- What a query answers that finds some rows. They stay as they are; a sheet that cannot be
replaced gives the one warning, and nothing is written then. -/
structure Answered (files : Files) (path : Option String) (r : Request) (rows : List Row)
    (result : ResultSet) (after : Files) : Prop where
  rows_eq : result.rows = rows
  warnings_le : result.warnings.length ≤ 1
  warned_iff : result.warnings ≠ [] ↔
    ∃ name t e, Exports r rows name t ∧ replaceSheet files path name t = .error e
  warning_eq : ∀ name t e, Exports r rows name t → replaceSheet files path name t = .error e →
    result.warnings = [(Export.failed name e).message]
  unchanged : rows = [] ∨ (∀ name, r.exportSheet = some name → isBlankText name = true) ∨
    result.warnings ≠ [] → after = files
  written : ∀ name t, Exports r rows name t → result.warnings = [] →
    replaceSheet files path name t = .ok after

/-- A query fares alike with and without its export. -/
structure ExportIsolated (deadline : Option Deadline) (files : Files) (path : Option String)
    (r : Request) : Prop where
  refused_iff : ∀ e, query deadline files path r = .error e ↔
    query deadline files path r.withoutExport = .error e
  answered : ∀ plain rest, query deadline files path r.withoutExport = .ok (plain, rest) →
    rest = files ∧ plain.warnings = [] ∧
      ∃ result after, query deadline files path r = .ok (result, after) ∧
        Answered files path r plain.rows result after

theorem exports_iff {r : Request} {rows : List Row} {name : String} {t : TextTable} :
    Exports r rows name t ↔
      Export.sheetName? r.exportSheet = some name ∧ Export.table? rows = some t := by
  rw [Exports, Export.sheetName?_eq_some_iff, and_assoc]

namespace Exports

variable {r : Request} {rows : List Row} {name : String} {t : TextTable}

theorem unique {name' : String} {t' : TextTable} (h : Exports r rows name t)
    (h' : Exports r rows name' t') : name' = name ∧ t' = t := by
  obtain ⟨hname, -, ht⟩ := h
  obtain ⟨hname', -, ht'⟩ := h'
  exact ⟨Option.some.inj (hname'.symm.trans hname), Option.some.inj (ht'.symm.trans ht)⟩

theorem rows_ne_nil (h : Exports r rows name t) : rows ≠ [] := by
  rintro rfl
  cases h.2.2

theorem not_blank (h : Exports r rows name t) :
    ¬∀ name, r.exportSheet = some name → isBlankText name = true := by
  intro hblank
  exact absurd ((hblank name h.1).symm.trans h.2.1) (by decide)

end Exports

namespace Answered

variable {files : Files} {path : Option String} {r : Request} {rows : List Row} {name : String}
  {t : TextTable}

theorem of_refused {e : Failure} (hexports : Exports r rows name t)
    (h : replaceSheet files path name t = .error e) :
    Answered files path r rows ⟨rows, [(Export.failed name e).message]⟩ files := by
  constructor
  case rows_eq => rfl
  case warnings_le => exact Nat.le_refl 1
  case warned_iff => exact iff_of_true (List.cons_ne_nil _ _) ⟨name, t, e, hexports, h⟩
  case warning_eq =>
    intro name' t' e' hexports' h'
    obtain ⟨rfl, rfl⟩ := hexports.unique hexports'
    rw [h, Except.error.injEq] at h'
    rw [h']
  case unchanged =>
    intro _
    rfl
  case written =>
    intro name' t' _ hwarnings
    cases hwarnings

theorem of_written {after : Files} (hexports : Exports r rows name t)
    (h : replaceSheet files path name t = .ok after) :
    Answered files path r rows ⟨rows, []⟩ after := by
  have hnever : ∀ {name' t' e}, Exports r rows name' t' →
      replaceSheet files path name' t' ≠ .error e := by
    intro name' t' e hexports' h'
    obtain ⟨rfl, rfl⟩ := hexports.unique hexports'
    rw [h] at h'
    cases h'
  constructor
  case rows_eq => rfl
  case warnings_le => exact Nat.zero_le 1
  case warned_iff =>
    refine iff_of_false (not_not_intro rfl) ?_
    rintro ⟨name', t', e, hexports', h'⟩
    exact hnever hexports' h'
  case warning_eq =>
    intro name' t' e hexports' h'
    exact absurd h' (hnever hexports')
  case unchanged =>
    rintro (hrows | hblank | hwarnings)
    · exact absurd hrows hexports.rows_ne_nil
    · exact absurd hblank hexports.not_blank
    · exact absurd rfl hwarnings
  case written =>
    intro name' t' hexports' _
    obtain ⟨rfl, rfl⟩ := hexports.unique hexports'
    exact h

theorem of_not_exports (h : ∀ name t, ¬Exports r rows name t) :
    Answered files path r rows ⟨rows, []⟩ files := by
  constructor
  case rows_eq => rfl
  case warnings_le => exact Nat.zero_le 1
  case warned_iff =>
    refine iff_of_false (not_not_intro rfl) ?_
    rintro ⟨name, t, e, hexports, -⟩
    exact h name t hexports
  case warning_eq =>
    intro name t e hexports _
    exact absurd hexports (h name t)
  case unchanged =>
    intro _
    rfl
  case written =>
    intro name t hexports _
    exact absurd hexports (h name t)

end Answered

theorem replaceSheet_of_openFile {files : Files} {path : Option String} {w : Workbook}
    (h : openFile files path = .ok w) (name : String) (t : TextTable) :
    replaceSheet files path name t = (w.replaceSheet name t).map (save files path) := by
  rw [replaceSheet, h]
  dsimp only
  cases w.replaceSheet name t <;> rfl

theorem query_of_rows {deadline : Option Deadline} {files : Files} {path : Option String}
    {w : Workbook} {r : Request} {rows : List Row} (hopen : openFile files path = .ok w)
    (hrows : Tabular.rows deadline w.book r = .ok rows) :
    query deadline files path r =
      .ok (⟨rows, (Tabular.exportRows w r rows).warnings⟩,
        ((Tabular.exportRows w r rows).workbook.map (save files path)).getD files) := by
  rw [query, hopen]
  dsimp only
  rw [Tabular.run, hrows]

theorem exportRows_of_exports {w : Workbook} {r : Request} {rows : List Row} {name : String}
    {t : TextTable} (h : Exports r rows name t) :
    Tabular.exportRows w r rows = match w.replaceSheet name t with
      | .ok w' => { workbook := some w' }
      | .error e => { warnings := [(Export.failed name e).message] } := by
  obtain ⟨hname, ht⟩ := exports_iff.1 h
  rw [Tabular.exportRows, hname, ht]
  dsimp only
  rw [Export.write]
  cases w.replaceSheet name t <;> rfl

theorem exportRows_of_not_exports {w : Workbook} {r : Request} {rows : List Row}
    (h : ∀ name t, ¬Exports r rows name t) : Tabular.exportRows w r rows = {} := by
  rw [Tabular.exportRows]
  split
  · next name t hname ht => exact absurd (exports_iff.2 ⟨hname, ht⟩) (h name t)
  · rfl

theorem answered_of_openFile {files : Files} {path : Option String} {w : Workbook}
    (hopen : openFile files path = .ok w) (r : Request) (rows : List Row) :
    Answered files path r rows ⟨rows, (Tabular.exportRows w r rows).warnings⟩
      (((Tabular.exportRows w r rows).workbook.map (save files path)).getD files) := by
  by_cases hany : ∃ name t, Exports r rows name t
  · obtain ⟨name, t, hexports⟩ := hany
    have hreplace := replaceSheet_of_openFile hopen name t
    rw [exportRows_of_exports hexports]
    cases hw : w.replaceSheet name t with
    | error e =>
        rw [hw] at hreplace
        exact .of_refused hexports hreplace
    | ok w' =>
        rw [hw] at hreplace
        exact .of_written hexports hreplace
  · have hnone : ∀ name t, ¬Exports r rows name t := fun name t h => hany ⟨name, t, h⟩
    rw [exportRows_of_not_exports hnone]
    exact .of_not_exports hnone

theorem query_of_refused {deadline : Option Deadline} {files : Files} {path : Option String}
    {w : Workbook} {r : Request} {e : Failure} (hopen : openFile files path = .ok w)
    (hrows : Tabular.rows deadline w.book r = .error e) :
    query deadline files path r = .error e := by
  rw [query, hopen]
  dsimp only
  rw [Tabular.run, hrows]

theorem ExportIsolated.of_refused {deadline : Option Deadline} {files : Files}
    {path : Option String} {r : Request} {e : Failure} (h : query deadline files path r = .error e)
    (hplain : query deadline files path r.withoutExport = .error e) :
    ExportIsolated deadline files path r := by
  constructor
  case refused_iff =>
    intro e'
    rw [h, hplain]
  case answered =>
    intro plain rest hanswer
    rw [hplain] at hanswer
    cases hanswer

/-- An export never changes what a query answers. -/
theorem query_isolatesExport (deadline : Option Deadline) (files : Files) (path : Option String)
    (r : Request) : ExportIsolated deadline files path r := by
  cases hopen : openFile files path with
  | error e =>
      have hquery : ∀ r, query deadline files path r = .error e := by
        intro r
        rw [query, hopen]
      exact .of_refused (hquery r) (hquery r.withoutExport)
  | ok w =>
      -- The rows do not depend on the name of the export.
      have hrows : Tabular.rows deadline w.book r.withoutExport =
          Tabular.rows deadline w.book r := rfl
      cases hfound : Tabular.rows deadline w.book r with
      | error e =>
          exact .of_refused (query_of_refused hopen hfound)
            (query_of_refused hopen (hrows.trans hfound))
      | ok rows =>
          have hanswer := query_of_rows hopen hfound
          have hplain := query_of_rows hopen (hrows.trans hfound)
          have hnone : Tabular.exportRows w r.withoutExport rows = {} := rfl
          rw [hnone] at hplain
          constructor
          case refused_iff =>
            intro e
            simp only [hanswer, hplain, reduceCtorEq]
          case answered =>
            intro plain rest h
            rw [hplain] at h
            cases h
            exact ⟨rfl, rfl, _, _, hanswer, answered_of_openFile hopen r rows⟩

end WorkbookFile

end TableQuery
