import TableQuery.Proofs.Storage.Export
import TableQuery.Proofs.Storage.Staging

/-!
# Runs of steps on a stored workbook

A run queries, reads, writes, exports and installs, in any order. A step that is refused, and a
query whose export ends in a warning, leave the stored workbook exactly as it was. A step that
writes a sheet leaves every sheet of another name alone, takes away at most one sheet and adds one
at the end.
-/

namespace TableQuery.Staging

open TableQuery.Text

/-- Exports rows to a sheet. Any failure is reported as one of the export. -/
def exportRows (disk : Disk) (temp : TempNames) (path : Option String) (name : String)
    (rows : List Row) : Staged Unit :=
  match Export.table? rows with
  | none => pure ()
  | some t =>
    tryCatch (replaceSheet disk temp path name t) fun e => throw (.query (Export.failed name e))

/-- Exports the rows of a query, and tells the warnings. -/
def exportQuery (disk : Disk) (temp : TempNames) (path : Option String) (r : Request)
    (rows : List Row) : Staged (List String) :=
  match Export.sheetName? r.exportSheet with
  | none => pure []
  | some name =>
    tryCatch (do exportRows disk temp path name rows; return []) fun e =>
      match e with
      | .query e => return [e.message]
      | e => throw e

/-- Answers a query. The workbook that it reads is not the one that the export reads anew. -/
def query (disk : Disk) (temp : TempNames) (deadline : Option Deadline) (path : Option String)
    (r : Request) : Staged ResultSet := do
  let w ← liftExcept (WorkbookFile.openFile (← get).files path)
  let rows ← liftExcept (Tabular.rows deadline w.book r)
  let warnings ← exportQuery disk temp path r rows
  return { rows, warnings }

def readSheet (path : Option String) (name : String) : Staged TextTable := do
  let w ← liftExcept (WorkbookFile.openFile (← get).files path)
  liftExcept ((w.book.read name).mapError Failure.query)

/-- Makes a file the workbook, when it is one. -/
def install (disk : Disk) (temp : TempNames) (path : Option String) (source : Content) :
    Staged Path := do
  let s ← liftExcept (WorkbookFile.configured path)
  match source with
  | .workbook w => do
    writeAtomic disk temp path w
    return Path.ofText s
  | _ => throw .notAWorkbook

/-- The files after rows were exported to a sheet. -/
def exported (disk : Disk) (files : Files) (path : Option String) (name : String)
    (rows : List Row) : Except Failure Files :=
  match Export.table? rows with
  | none => .ok files
  | some t =>
    match written disk files path name t with
    | .ok files' => .ok files'
    | .error e => .error (.query (Export.failed name e))

/-- The warnings of a query and the files behind its export. -/
def noted (disk : Disk) (files : Files) (path : Option String) (r : Request) (rows : List Row) :
    List String × Files :=
  match Export.sheetName? r.exportSheet, Export.table? rows with
  | some name, some t =>
    match written disk files path name t with
    | .ok files' => ([], files')
    | .error e => ([(Export.failed name e).message], files)
  | _, _ => ([], files)

theorem noted_of_exports {disk : Disk} {files : Files} {path : Option String} {r : Request}
    {rows : List Row} {name : String} {t : TextTable} (h : WorkbookFile.Exports r rows name t) :
    noted disk files path r rows = match written disk files path name t with
      | .ok files' => ([], files')
      | .error e => ([(Export.failed name e).message], files) := by
  obtain ⟨hname, ht⟩ := WorkbookFile.exports_iff.1 h
  rw [noted, hname, ht]

theorem noted_of_not_exports {disk : Disk} {files : Files} {path : Option String} {r : Request}
    {rows : List Row} (h : ∀ name t, ¬WorkbookFile.Exports r rows name t) :
    noted disk files path r rows = ([], files) := by
  rw [noted]
  split
  · next name t hname ht => exact absurd (WorkbookFile.exports_iff.2 ⟨hname, ht⟩) (h name t)
  · rfl

/-- The answer of a query and the files behind it. -/
def queried (disk : Disk) (deadline : Option Deadline) (files : Files) (path : Option String)
    (r : Request) : Except Failure (ResultSet × Files) :=
  WorkbookFile.openFile files path >>= fun w =>
    (Tabular.rows deadline w.book r).map fun rows =>
      (⟨rows, (noted disk files path r rows).1⟩, (noted disk files path r rows).2)

theorem queried_of_openFile {files : Files} {path : Option String} {w : Workbook}
    (hopen : WorkbookFile.openFile files path = .ok w) (disk : Disk) (deadline : Option Deadline)
    (r : Request) :
    queried disk deadline files path r =
      (Tabular.rows deadline w.book r).map fun rows =>
        (⟨rows, (noted disk files path r rows).1⟩, (noted disk files path r rows).2) := by
  rw [queried, hopen]
  rfl

theorem queried_of_rows {deadline : Option Deadline} {files : Files} {path : Option String}
    {r : Request} {w : Workbook} {rows : List Row}
    (hopen : WorkbookFile.openFile files path = .ok w)
    (hrows : Tabular.rows deadline w.book r = .ok rows) (disk : Disk) :
    queried disk deadline files path r =
      .ok (⟨rows, (noted disk files path r rows).1⟩, (noted disk files path r rows).2) := by
  rw [queried_of_openFile hopen, hrows]
  rfl

/-- The contents of a sheet. -/
def contents (files : Files) (path : Option String) (name : String) : Except Failure TextTable :=
  WorkbookFile.openFile files path >>= fun w => (w.book.read name).mapError Failure.query

/-- The path of the workbook and the files after one was installed. -/
def installed (disk : Disk) (files : Files) (path : Option String) (source : Content) :
    Except Failure (Path × Files) :=
  WorkbookFile.configured path >>= fun s =>
    match source with
    | .workbook w => (disk.save files path w).map fun files' => (Path.ofText s, files')
    | _ => .error .notAWorkbook

namespace Commits

variable {α β : Type} {d : Desk} {x : Staged α}

theorem lift {a : Except Failure β} {p : β → Staged α} {k : β → Except Failure (α × Files)}
    (h : ∀ b, a = .ok b → Commits (p b) d (k b)) : Commits (liftExcept a >>= p) d (a >>= k) := by
  cases a with
  | error e => exact .error (w := d.draft) rfl
  | ok b =>
      refine of_exec_eq ?_ (h b rfl)
      rw [exec_bind, exec_liftExcept]

theorem ofExcept (a : Except Failure α) :
    Commits (liftExcept a) d (a.map fun a => (a, d.files)) := by
  cases a with
  | error e => exact .error (w := d.draft) rfl
  | ok a => exact .ok (w := d.draft) rfl

theorem andReturn {r : Except Failure (α × Files)} (h : Commits x d r) (f : α → β) :
    Commits (x >>= fun a => pure (f a)) d (r.map fun (a, files) => (f a, files)) := by
  cases h with
  | @ok a files draft h =>
      refine .ok (w := draft) ?_
      rw [exec_bind, h]
      rfl
  | @error e draft h =>
      refine .error (w := draft) ?_
      rw [exec_bind, h]

theorem tryCatch_of_ok {f : Failure → Staged α} {a : α} {files : Files}
    (h : Commits x d (.ok (a, files))) : Commits (tryCatch x f) d (.ok (a, files)) := by
  obtain @⟨_, _, draft, h⟩ | _ := h
  refine .ok (w := draft) ?_
  rw [exec_tryCatch, h]

theorem tryCatch_of_error {f : Failure → Staged α} {e : Failure} {r : Except Failure (α × Files)}
    (h : Commits x d (.error e)) (hf : ∀ draft, Commits (f e) ⟨d.files, draft⟩ r) :
    Commits (tryCatch x f) d r := by
  obtain _ | @⟨_, draft, h⟩ := h
  refine of_exec_eq (w := draft) (y := f e) ?_ (hf draft)
  rw [exec_tryCatch, h]

end Commits

section Programs

variable (disk : Disk) (temp : TempNames) (path : Option String) (d : Desk)

theorem commits_exportRows (name : String) (rows : List Row) :
    Commits (exportRows disk temp path name rows) d
      ((exported disk d.files path name rows).map fun files => ((), files)) := by
  rw [exportRows, exported]
  cases Export.table? rows with
  | none => exact .ok rfl
  | some t =>
      have hreplace := commits_replaceSheet disk temp path name t d
      dsimp only
      cases hwritten : written disk d.files path name t with
      | ok files =>
          rw [hwritten] at hreplace
          exact hreplace.tryCatch_of_ok
      | error e =>
          rw [hwritten] at hreplace
          exact hreplace.tryCatch_of_error fun draft => .error rfl

theorem commits_exportQuery (r : Request) (rows : List Row) :
    Commits (exportQuery disk temp path r rows) d (.ok (noted disk d.files path r rows)) := by
  rw [exportQuery, noted]
  cases Export.sheetName? r.exportSheet with
  | none => exact .ok rfl
  | some name =>
      have hexport := (commits_exportRows disk temp path d name rows).andReturn
        fun _ => ([] : List String)
      rw [exported] at hexport
      cases htable : Export.table? rows with
      | none =>
          rw [htable] at hexport
          exact hexport.tryCatch_of_ok
      | some t =>
          rw [htable] at hexport
          dsimp only at hexport ⊢
          cases hwritten : written disk d.files path name t with
          | ok files =>
              rw [hwritten] at hexport
              exact hexport.tryCatch_of_ok
          | error e =>
              rw [hwritten] at hexport
              exact hexport.tryCatch_of_error fun draft => .ok rfl

theorem commits_query (deadline : Option Deadline) (r : Request) :
    Commits (query disk temp deadline path r) d (queried disk deadline d.files path r) := by
  refine .of_exec_eq (w := d.draft) ?_ (.lift fun w _ => .lift fun rows _ =>
    (commits_exportQuery disk temp path d r rows).andReturn (ResultSet.mk rows))
  rw [query, exec_bind, exec_get]

theorem commits_readSheet (name : String) :
    Commits (readSheet path name) d
      ((contents d.files path name).map fun t => (t, d.files)) := by
  have hread : Commits (readSheet path name) d (WorkbookFile.openFile d.files path >>= fun w =>
      ((w.book.read name).mapError Failure.query).map fun t => (t, d.files)) := by
    refine .of_exec_eq (w := d.draft) ?_ (.lift fun w _ => .ofExcept _)
    rw [readSheet, exec_bind, exec_get]
  rw [contents]
  cases hopen : WorkbookFile.openFile d.files path <;> rw [hopen] at hread <;> exact hread

theorem commits_install (source : Content) :
    Commits (install disk temp path source) d (installed disk d.files path source) := by
  refine .lift fun s _ => ?_
  cases source with
  | workbook w =>
      have hwrite := (commits_writeAtomic disk temp path w d).andReturn fun _ => Path.ofText s
      dsimp only
      cases hsave : disk.save d.files path w <;> rw [hsave] at hwrite <;> exact hwrite
  | database b => exact .error rfl
  | text s => exact .error rfl

end Programs

/-- A step of a run. -/
inductive Step
  | query (deadline : Option Deadline) (r : Request)
  | readSheet (name : String)
  | replaceSheet (name : String) (t : TextTable)
  | exportRows (name : String) (rows : List Row)
  | install (source : Content)

/-- What a step answers. -/
inductive Answer
  | result (result : ResultSet)
  | table (t : TextTable)
  | done
  | installed (p : Path)

namespace Step

/-- The program of a step. -/
def program (disk : Disk) (temp : TempNames) (path : Option String) : Step → Staged Answer
  | query deadline r => do return .result (← Staging.query disk temp deadline path r)
  | readSheet name => do return .table (← Staging.readSheet path name)
  | replaceSheet name t => do
    Staging.replaceSheet disk temp path name t
    return .done
  | exportRows name rows => do
    Staging.exportRows disk temp path name rows
    return .done
  | install source => do return .installed (← Staging.install disk temp path source)

/-- The answer of a step and the files behind it. -/
def run (disk : Disk) (temp : TempNames) (path : Option String) (files : Files) (step : Step) :
    Except Failure Answer × Files :=
  let (answer, d) := exec (step.program disk temp path) ⟨files, ⟨[]⟩⟩
  (answer, d.files)

/-- What a step comes to. -/
def outcome (disk : Disk) (path : Option String) (files : Files) :
    Step → Except Failure (Answer × Files)
  | query deadline r =>
    (queried disk deadline files path r).map fun (result, files') => (.result result, files')
  | readSheet name => (contents files path name).map fun t => (.table t, files)
  | replaceSheet name t => (written disk files path name t).map fun files' => (.done, files')
  | exportRows name rows => (exported disk files path name rows).map fun files' => (.done, files')
  | install source =>
    (installed disk files path source).map fun (p, files') => (.installed p, files')

/-- What the operation of a step on the workbook file comes to. -/
def direct (path : Option String) (files : Files) : Step → Except Failure (Answer × Files)
  | query deadline r =>
    (WorkbookFile.query deadline files path r).map fun (result, files') => (.result result, files')
  | readSheet name => (contents files path name).map fun t => (.table t, files)
  | replaceSheet name t =>
    (WorkbookFile.replaceSheet files path name t).map fun files' => (.done, files')
  | exportRows name rows =>
    (WorkbookFile.exportRows files path name rows).map fun files' => (.done, files')
  | install source =>
    (WorkbookFile.install files path source).map fun (p, files') => (.installed p, files')

theorem commits_program (disk : Disk) (temp : TempNames) (path : Option String) (d : Desk)
    (step : Step) : Commits (step.program disk temp path) d (step.outcome disk path d.files) := by
  cases step with
  | query deadline r => exact (commits_query disk temp path d deadline r).andReturn Answer.result
  | readSheet name =>
      have hread := (commits_readSheet path d name).andReturn Answer.table
      rw [map_map] at hread
      exact hread
  | replaceSheet name t =>
      have hwrite := (commits_replaceSheet disk temp path name t d).andReturn fun _ => Answer.done
      rw [map_map] at hwrite
      exact hwrite
  | exportRows name rows =>
      have hwrite := (commits_exportRows disk temp path d name rows).andReturn fun _ => Answer.done
      rw [map_map] at hwrite
      exact hwrite
  | install source =>
      exact (commits_install disk temp path d source).andReturn Answer.installed

/-- The answer and the files behind a step, which are those before it when it is refused. -/
def settle (files : Files) : Except Failure (Answer × Files) → Except Failure Answer × Files
  | .ok (answer, files') => (.ok answer, files')
  | .error e => (.error e, files)

theorem run_eq (disk : Disk) (temp : TempNames) (path : Option String) (files : Files)
    (step : Step) :
    step.run disk temp path files = settle files (step.outcome disk path files) := by
  have hcommits := step.commits_program disk temp path ⟨files, ⟨[]⟩⟩
  rw [run]
  generalize step.outcome disk path files = r at hcommits ⊢
  cases hcommits with
  | ok h =>
      rw [h]
      rfl
  | error h =>
      rw [h]
      rfl

end Step

/-- A disk that takes every workbook. -/
def Disk.roomy : Disk := fun _ => none

section Roomy

variable (files : Files) (path : Option String)

theorem written_roomy (name : String) (t : TextTable) :
    written .roomy files path name t = WorkbookFile.replaceSheet files path name t := by
  rw [written, WorkbookFile.replaceSheet]
  cases WorkbookFile.openFile files path with
  | error e => rfl
  | ok w =>
      dsimp only
      cases hw : w.replaceSheet name t with
      | error e => exact congrArg (· >>= Disk.roomy.save files path) hw
      | ok w' => exact congrArg (· >>= Disk.roomy.save files path) hw

theorem exported_roomy (name : String) (rows : List Row) :
    exported .roomy files path name rows = WorkbookFile.exportRows files path name rows := by
  rw [exported, WorkbookFile.exportRows]
  cases Export.table? rows with
  | none => rfl
  | some t =>
      have hwritten := written_roomy files path name t
      cases hreplace : WorkbookFile.replaceSheet files path name t with
      | ok files' => simp only [hwritten, hreplace]
      | error e => simp only [hwritten, hreplace]

theorem noted_roomy {w : Workbook} (hopen : WorkbookFile.openFile files path = .ok w) (r : Request)
    (rows : List Row) :
    noted .roomy files path r rows = ((Tabular.exportRows w r rows).warnings,
      ((Tabular.exportRows w r rows).workbook.map (WorkbookFile.save files path)).getD files) := by
  by_cases hany : ∃ name t, WorkbookFile.Exports r rows name t
  · obtain ⟨name, t, hexports⟩ := hany
    rw [noted_of_exports hexports, WorkbookFile.exportRows_of_exports hexports, written_roomy,
      WorkbookFile.replaceSheet_of_openFile hopen]
    cases w.replaceSheet name t <;> rfl
  · have hnone : ∀ name t, ¬WorkbookFile.Exports r rows name t := fun name t h => hany ⟨name, t, h⟩
    rw [noted_of_not_exports hnone, WorkbookFile.exportRows_of_not_exports hnone]
    rfl

theorem queried_roomy (deadline : Option Deadline) (r : Request) :
    queried .roomy deadline files path r = WorkbookFile.query deadline files path r := by
  cases hopen : WorkbookFile.openFile files path with
  | error e =>
      rw [queried, WorkbookFile.query, hopen]
      rfl
  | ok w =>
      have hqueried := queried_of_openFile hopen .roomy deadline r
      cases hrows : Tabular.rows deadline w.book r with
      | error e =>
          rw [hqueried, hrows, WorkbookFile.query_of_refused hopen hrows]
          rfl
      | ok rows =>
          rw [hqueried, hrows, WorkbookFile.query_of_rows hopen hrows]
          simp only [Except.map, noted_roomy files path hopen]

theorem installed_roomy (source : Content) :
    installed .roomy files path source = WorkbookFile.install files path source := by
  rw [installed, WorkbookFile.install]
  cases WorkbookFile.configured path with
  | error e => rfl
  | ok s => cases source <;> rfl

/-- On a disk that takes every workbook a step is the operation on the workbook file. -/
theorem Step.outcome_roomy (step : Step) :
    step.outcome .roomy path files = step.direct path files := by
  cases step with
  | query deadline r => rw [outcome, direct, queried_roomy]
  | readSheet name => rfl
  | replaceSheet name t => rw [outcome, direct, written_roomy]
  | exportRows name rows => rw [outcome, direct, exported_roomy]
  | install source => rw [outcome, direct, installed_roomy]

end Roomy

end TableQuery.Staging
