import TableQuery.Proofs.Workbook.Replacing
import TableQuery.Storage.WorkbookFile

/-!
# Writing in stages

A sheet is written in stages. The workbook is read into memory, a sheet that matches is taken out
of it, a new one is put in and filled cell by cell, and only then is the workbook written, to a
fresh file that takes the place of the old one at last. A stage that fails leaves behind what the
stages before it did. They all work in memory or on the fresh file, so a write that stops halfway
leaves the files as they were.
-/

namespace TableQuery.Staging

open TableQuery.Text

/-- The files, and the workbook that is held in memory. -/
structure Desk where
  files : Files
  draft : Workbook := ⟨[]⟩

/-- A program on files and memory. What it has done stays done when it fails. -/
abbrev Staged := ExceptT Failure (StateM Desk)

/-- Why a workbook cannot be written to the disk, when it cannot. -/
abbrev Disk := Workbook → Option Failure

/-- Names for fresh files. -/
structure TempNames where
  name : Files → Path
  fresh : ∀ files, ∀ entry ∈ files.entries, entry.1 ≠ name files

/-- A name with more parts than all others is fresh. -/
instance : Inhabited TempNames where
  default :=
    { name := fun files =>
        let lengths := files.entries.map fun entry => entry.1.parts.length
        ⟨"", List.replicate (lengths.max?.getD 0 + 1) "tmp"⟩
      fresh := by
        intro files entry hentry heq
        have hlength := List.le_max?_getD_of_mem (k := 0)
          (List.mem_map_of_mem (f := fun entry => entry.1.parts.length) hentry)
        rw [heq, List.length_replicate] at hlength
        omega }

def onFiles (f : Files → Files) : Staged Unit :=
  modify fun d => { d with files := f d.files }

def onSheets (f : List Sheet → List Sheet) : Staged Unit :=
  modify fun d => { d with draft := ⟨f d.draft.sheets⟩ }

/-- A list with its last element changed. -/
def onLast {α : Type} (f : α → α) (xs : List α) : List α :=
  xs.dropLast ++ xs.getLast?.toList.map f

/-- Reads the workbook at a path into memory, as it is kept when it is written again. -/
def load (path : Option String) : Staged Unit := do
  let w ← liftExcept (WorkbookFile.openFile (← get).files path)
  onSheets fun _ => w.sheets.map Sheet.kept

def createSheet (name : String) : Staged Unit := do
  let title ← liftExcept (Title.choose (← get).draft.titles name)
  onSheets (· ++ [{ title, rows := [] }])

def writeCell (bold : Bool) (text : String) : Staged Unit := do
  let cell ← liftExcept (Sheet.writeText bold text)
  onSheets (onLast fun s => { s with rows := onLast (· ++ [cell]) s.rows })

def writeRow (bold : Bool) (texts : List String) : Staged Unit := do
  onSheets (onLast fun s => { s with rows := s.rows ++ [[]] })
  texts.forM (writeCell bold)

/-- Writes a row below the header unless it is past the last one. -/
def writeTexts (texts : List String) (i : Nat) : Staged Unit :=
  if Sheet.maxRows < i + 2 ∧ texts ≠ [] then throw (.rowInvalid (i + 2))
  else writeRow false texts

/-- Puts a table over the written range of the last sheet, when there is a header. -/
def addTable (t : TextTable) : Staged Unit := do
  let draft := (← get).draft
  let title := (draft.sheets.getLast?.map Sheet.title).getD ""
  let tables ← liftExcept (Sheet.tablesOver draft.tableNames title t)
  onSheets (onLast fun s => { s with tables })

def setWidths (t : TextTable) : Staged Unit := do
  let widths ← liftExcept (Sheet.widthsOf t)
  onSheets (onLast fun s => { s with widths })

def writeTable (t : TextTable) : Staged Unit := do
  writeRow true t.header
  t.rows.zipIdx.forM fun (texts, i) => writeTexts texts i
  addTable t
  setWidths t

/-- The files after one has taken the place of another. -/
def rename (files : Files) (source target : Path) : Files :=
  match files.find? source with
  | some content => (files.remove source).put target content
  | none => files

/-- Writes a workbook to a fresh file that then takes the place of the one at a path. -/
def writeAtomic (disk : Disk) (temp : TempNames) (path : Option String) (w : Workbook) :
    Staged Unit := do
  let fresh := temp.name (← get).files
  onFiles (·.put fresh (.text ""))
  match disk w with
  | some e => do
    onFiles (·.remove fresh)
    throw e
  | none => do
    onFiles (·.put fresh (.workbook w))
    onFiles (rename · fresh (Path.ofText (path.getD "")))

/-- Replaces a sheet of the workbook in memory. -/
def redraft (path : Option String) (name : String) (t : TextTable) : Staged Unit := do
  load path
  onSheets (Workbook.dropMatching name)
  createSheet name
  writeTable t

/-- Replaces a sheet of the workbook. -/
def replaceSheet (disk : Disk) (temp : TempNames) (path : Option String) (name : String)
    (t : TextTable) : Staged Unit := do
  redraft path name t
  writeAtomic disk temp path (← get).draft

/-- What a program ends with. -/
def exec {α : Type} (x : Staged α) (d : Desk) : Except Failure α × Desk :=
  StateT.run (ExceptT.run x) d

section Exec

variable {α β : Type}

@[simp] theorem exec_throw (e : Failure) (d : Desk) : exec (throw e : Staged α) d = (.error e, d) :=
  rfl

theorem exec_bind (x : Staged α) (f : α → Staged β) (d : Desk) :
    exec (x >>= f) d = match exec x d with
      | (.ok a, d') => exec (f a) d'
      | (.error e, d') => (.error e, d') := by
  have hrun : StateT.run (ExceptT.run x) d = exec x d := rfl
  rw [exec, ExceptT.run_bind, StateT.run_bind, hrun]
  rcases exec x d with ⟨_ | a, d'⟩ <;> rfl

@[simp] theorem exec_get (d : Desk) : exec (get : Staged Desk) d = (.ok d, d) := rfl

@[simp] theorem exec_liftExcept (x : Except Failure α) (d : Desk) :
    exec (liftExcept x) d = (x, d) := by
  cases x <;> rfl

@[simp] theorem exec_onFiles (f : Files → Files) (d : Desk) :
    exec (onFiles f) d = (.ok (), { d with files := f d.files }) := rfl

@[simp] theorem exec_onSheets (f : List Sheet → List Sheet) (d : Desk) :
    exec (onSheets f) d = (.ok (), { d with draft := ⟨f d.draft.sheets⟩ }) := rfl

theorem exec_tryCatch (x : Staged α) (f : Failure → Staged α) (d : Desk) :
    exec (tryCatch x f) d = match exec x d with
      | (.ok a, d') => (.ok a, d')
      | (.error e, d') => exec (f e) d' := by
  have hrun : StateT.run (ExceptT.run x) d = exec x d := rfl
  rw [exec, ExceptT.run_tryCatch, StateT.run_bind, hrun]
  rcases exec x d with ⟨_ | a, d'⟩ <;> rfl

end Exec

/-- A program that works in memory only. It ends with a draft or it fails, and either way the
files are as they were. -/
inductive Drafts (x : Staged Unit) (d : Desk) : Except Failure Workbook → Prop
  | ok {w : Workbook} (h : exec x d = (.ok (), ⟨d.files, w⟩)) : Drafts x d (.ok w)
  | error {e : Failure} {w : Workbook} (h : exec x d = (.error e, ⟨d.files, w⟩)) :
      Drafts x d (.error e)

namespace Drafts

variable {d : Desk} {x y : Staged Unit}

theorem onSheets (f : List Sheet → List Sheet) :
    Drafts (onSheets f) d (.ok ⟨f d.draft.sheets⟩) :=
  .ok rfl

theorem of_exec_eq {w : Workbook} {r : Except Failure Workbook}
    (h : exec x d = exec y ⟨d.files, w⟩) (hy : Drafts y ⟨d.files, w⟩ r) : Drafts x d r := by
  cases hy with
  | ok hy => exact .ok (h.trans hy)
  | error hy => exact .error (h.trans hy)

theorem andThen {w : Workbook} {r : Except Failure Workbook} (hx : Drafts x d (.ok w))
    (hy : Drafts y ⟨d.files, w⟩ r) : Drafts (x >>= fun _ => y) d r := by
  obtain ⟨hx⟩ | _ := hx
  refine of_exec_eq ?_ hy
  rw [exec_bind, hx]

theorem stop {e : Failure} (hx : Drafts x d (.error e)) :
    Drafts (x >>= fun _ => y) d (.error e) := by
  obtain _ | @⟨_, draft, hx⟩ := hx
  have hexec : exec (x >>= fun _ => y) d = (.error e, ⟨d.files, draft⟩) := by
    rw [exec_bind, hx]
  exact .error hexec

/-- A program goes on with the draft that a part of the result makes, when there is that part. -/
theorem bind {γ : Type} {a : Except Failure γ} {g : γ → Workbook}
    {k : γ → Except Failure Workbook} (hx : Drafts x d (a.map g))
    (hy : ∀ c, Drafts y ⟨d.files, g c⟩ (k c)) : Drafts (x >>= fun _ => y) d (a >>= k) := by
  cases a with
  | error e => exact hx.stop
  | ok c => exact hx.andThen (hy c)

theorem lift {α : Type} {a : Except Failure α} {p : α → Staged Unit}
    {k : α → Except Failure Workbook} (h : ∀ c, a = .ok c → Drafts (p c) d (k c)) :
    Drafts (liftExcept a >>= p) d (a >>= k) := by
  cases a with
  | error e => exact .error (w := d.draft) rfl
  | ok c =>
      refine of_exec_eq ?_ (h c rfl)
      rw [exec_bind, exec_liftExcept]

/-- A step for every element of a list, each with a result of its own. -/
theorem forM {α γ : Type} {files : Files} {p : α → Staged Unit} {f : α → Except Failure γ}
    {g : List γ → Workbook}
    (h : ∀ done a, Drafts (p a) ⟨files, g done⟩ ((f a).map fun c => g (done ++ [c]))) (xs : List α)
    (done : List γ) :
    Drafts (xs.forM p) ⟨files, g done⟩ ((xs.mapM f).map fun cs => g (done ++ cs)) := by
  induction xs generalizing done with
  | nil =>
      have hnil : (([] : List α).mapM f).map (fun cs => g (done ++ cs)) = .ok (g done) := by
        rw [List.mapM_nil, ← List.append_nil done]
        simp [Except.map, pure, Except.pure]
      rw [hnil]
      exact .ok rfl
  | cons x xs ih =>
      rw [List.mapM_cons, map_bind]
      refine (h done x).bind fun c => ?_
      have hrest := ih (done ++ [c])
      simp only [List.append_assoc, List.singleton_append, map_eq_bind] at hrest
      rw [map_bind]
      exact hrest

end Drafts

theorem onLast_append {α : Type} (f : α → α) (xs : List α) (x : α) :
    onLast f (xs ++ [x]) = xs ++ [f x] := by
  simp [onLast]

section Writing

variable (files : Files) (sheets : List Sheet) (s : Sheet)

theorem drafts_writeCell (bold : Bool) (rows : List (List (Option Cell)))
    (row : List (Option Cell)) (text : String) :
    Drafts (writeCell bold text) ⟨files, ⟨sheets ++ [{ s with rows := rows ++ [row] }]⟩⟩
      ((Sheet.writeText bold text).map fun cell =>
        ⟨sheets ++ [{ s with rows := rows ++ [row ++ [cell]] }]⟩) := by
  rw [map_eq_bind]
  refine Drafts.lift fun cell _ => .ok ?_
  simp only [exec_onSheets, onLast_append]

theorem drafts_writeRow (bold : Bool) (rows : List (List (Option Cell))) (texts : List String) :
    Drafts (writeRow bold texts) ⟨files, ⟨sheets ++ [{ s with rows }]⟩⟩
      ((texts.mapM (Sheet.writeText bold)).map fun cells =>
        ⟨sheets ++ [{ s with rows := rows ++ [cells] }]⟩) := by
  have hstart : Drafts (onSheets (onLast fun s => { s with rows := s.rows ++ [[]] }))
      ⟨files, ⟨sheets ++ [{ s with rows }]⟩⟩
      (.ok ⟨sheets ++ [{ s with rows := rows ++ [[]] }]⟩) := by
    refine .ok ?_
    rw [exec_onSheets, onLast_append]
  exact hstart.andThen (Drafts.forM (drafts_writeCell files sheets s bold rows) texts [])

theorem drafts_writeTexts (rows : List (List (Option Cell))) (texts : List String) (i : Nat) :
    Drafts (writeTexts texts i) ⟨files, ⟨sheets ++ [{ s with rows }]⟩⟩
      ((Sheet.writeTexts texts i).map fun cells =>
        ⟨sheets ++ [{ s with rows := rows ++ [cells] }]⟩) := by
  rw [writeTexts, Sheet.writeTexts]
  split_ifs
  · exact .error rfl
  · exact drafts_writeRow files sheets s false rows texts

theorem drafts_addTable (title : String) (rows : List (List (Option Cell))) (t : TextTable) :
    Drafts (addTable t) ⟨files, ⟨sheets ++ [⟨title, rows, [], []⟩]⟩⟩
      ((Sheet.tablesOver (Workbook.tableNames ⟨sheets⟩) title t).map fun tables =>
        ⟨sheets ++ [⟨title, rows, tables, []⟩]⟩) := by
  have hnames : Workbook.tableNames ⟨sheets ++ [⟨title, rows, [], []⟩]⟩ =
      Workbook.tableNames ⟨sheets⟩ := by
    simp [Workbook.tableNames]
  rw [map_eq_bind]
  refine .of_exec_eq (w := ⟨sheets ++ [⟨title, rows, [], []⟩]⟩) ?_ (.lift fun tables _ =>
    .ok (x := onSheets (onLast fun s => { s with tables })) ?_)
  · rw [addTable, exec_bind, exec_get]
    simp only [hnames, List.getLast?_concat, Option.map_some, Option.getD_some]
  · simp only [exec_onSheets, onLast_append]

theorem drafts_setWidths (title : String) (rows : List (List (Option Cell)))
    (tables : List SheetTable) (t : TextTable) :
    Drafts (setWidths t) ⟨files, ⟨sheets ++ [⟨title, rows, tables, []⟩]⟩⟩
      ((Sheet.widthsOf t).map fun widths => ⟨sheets ++ [⟨title, rows, tables, widths⟩]⟩) := by
  rw [map_eq_bind]
  refine Drafts.lift fun widths _ => .ok ?_
  simp only [exec_onSheets, onLast_append]

theorem drafts_writeTable (title : String) (t : TextTable) :
    Drafts (writeTable t) ⟨files, ⟨sheets ++ [⟨title, [], [], []⟩]⟩⟩
      ((Sheet.write title (Workbook.tableNames ⟨sheets⟩) t).map fun s => ⟨sheets ++ [s]⟩) := by
  rw [writeTable, Sheet.write, map_bind]
  refine (drafts_writeRow files sheets ⟨title, [], [], []⟩ true [] t.header).bind fun header => ?_
  have hrows := Drafts.forM (g := fun rows => ⟨sheets ++ [⟨title, header :: rows, [], []⟩]⟩)
    (fun done row =>
      drafts_writeTexts files sheets ⟨title, [], [], []⟩ (header :: done) row.1 row.2)
    t.rows.zipIdx []
  rw [map_bind]
  refine hrows.bind fun rows => ?_
  -- The table and the widths come last, when all cells are there.
  rw [map_bind]
  refine (drafts_addTable files sheets title (header :: rows) t).bind fun tables => ?_
  rw [map_bind]
  have hwidths := drafts_setWidths files sheets title (header :: rows) tables t
  rw [map_eq_bind] at hwidths
  exact hwidths

end Writing

theorem dropMatching_map_kept (name : String) (sheets : List Sheet) :
    Workbook.dropMatching name (sheets.map Sheet.kept) =
      (Workbook.dropMatching name sheets).map Sheet.kept := by
  induction sheets with
  | nil => rfl
  | cons s sheets ih =>
      have htitle : s.kept.title = s.title := rfl
      rw [List.map_cons, Workbook.dropMatching, Workbook.dropMatching, htitle]
      by_cases hs : sameFold s.title name = true
      · rw [if_pos hs, if_pos hs]
      · rw [if_neg hs, if_neg hs, ih, List.map_cons]

theorem titles_map_kept (sheets : List Sheet) :
    Workbook.titles ⟨sheets.map Sheet.kept⟩ = Workbook.titles ⟨sheets⟩ := by
  rw [Workbook.titles, Workbook.titles, List.map_map]
  rfl

theorem tableNames_map_kept (sheets : List Sheet) :
    Workbook.tableNames ⟨sheets.map Sheet.kept⟩ = Workbook.tableNames ⟨sheets⟩ := by
  rw [Workbook.tableNames, Workbook.tableNames, List.flatMap_map]
  rfl

theorem drafts_load (path : Option String) (d : Desk) :
    Drafts (load path) d
      ((WorkbookFile.openFile d.files path).map fun w => ⟨w.sheets.map Sheet.kept⟩) := by
  rw [map_eq_bind]
  refine .of_exec_eq (w := d.draft) ?_ (.lift fun w _ => .onSheets fun _ => w.sheets.map Sheet.kept)
  rw [load, exec_bind, exec_get]

theorem drafts_createSheet (name : String) (d : Desk) :
    Drafts (createSheet name) d
      ((Title.choose d.draft.titles name).map fun title =>
        ⟨d.draft.sheets ++ [⟨title, [], [], []⟩]⟩) := by
  rw [map_eq_bind]
  refine .of_exec_eq (w := d.draft) ?_ (.lift fun title _ => .onSheets (· ++ [⟨title, [], [], []⟩]))
  rw [createSheet, exec_bind, exec_get]

theorem drafts_redraft (path : Option String) (name : String) (t : TextTable) (d : Desk) :
    Drafts (redraft path name t) d
      (WorkbookFile.openFile d.files path >>= fun w => w.replaceSheet name t) := by
  rw [redraft]
  refine (drafts_load path d).bind fun w => ?_
  refine (Drafts.onSheets (Workbook.dropMatching name)).andThen ?_
  rw [dropMatching_map_kept, Workbook.replaceSheet, ← titles_map_kept, ← tableNames_map_kept]
  generalize (Workbook.dropMatching name w.sheets).map Sheet.kept = others
  refine (drafts_createSheet name ⟨d.files, ⟨others⟩⟩).bind fun title => ?_
  have hsheet := drafts_writeTable d.files others title t
  rw [map_eq_bind] at hsheet
  exact hsheet

/-- A program that changes the files at once or not at all. It ends with an answer and files, or it
fails with the files as they were. -/
inductive Commits {α : Type} (x : Staged α) (d : Desk) : Except Failure (α × Files) → Prop
  | ok {a : α} {files : Files} {w : Workbook} (h : exec x d = (.ok a, ⟨files, w⟩)) :
      Commits x d (.ok (a, files))
  | error {e : Failure} {w : Workbook} (h : exec x d = (.error e, ⟨d.files, w⟩)) :
      Commits x d (.error e)

theorem Commits.of_exec_eq {α : Type} {x y : Staged α} {d : Desk} {w : Workbook}
    {r : Except Failure (α × Files)} (h : exec x d = exec y ⟨d.files, w⟩)
    (hy : Commits y ⟨d.files, w⟩ r) : Commits x d r := by
  cases hy with
  | ok hy => exact .ok (h.trans hy)
  | error hy => exact .error (h.trans hy)

/-- The files after a workbook was written to the disk. -/
def Disk.save (disk : Disk) (files : Files) (path : Option String) (w : Workbook) :
    Except Failure Files :=
  match disk w with
  | some e => .error e
  | none => .ok (WorkbookFile.save files path w)

/-- The files after a sheet of the workbook was replaced. -/
def written (disk : Disk) (files : Files) (path : Option String) (name : String) (t : TextTable) :
    Except Failure Files :=
  (WorkbookFile.openFile files path >>= fun w => w.replaceSheet name t) >>= disk.save files path

theorem put_put (files : Files) (p : Path) (c c' : Content) :
    (files.put p c).put p c' = files.put p c' := by
  simp [Files.put]

theorem remove_put {files : Files} {p : Path} (h : ∀ entry ∈ files.entries, entry.1 ≠ p)
    (c : Content) : (files.put p c).remove p = files := by
  have hfilter : files.entries.filter (fun entry => entry.1 != p) = files.entries := by
    rw [List.filter_eq_self]
    intro entry hentry
    simpa using h entry hentry
  simp [Files.put, Files.remove, hfilter]

/-- The fresh file is gone in the end, whether the disk takes the workbook or not. -/
theorem commits_writeAtomic (disk : Disk) (temp : TempNames) (path : Option String) (w : Workbook)
    (d : Desk) :
    Commits (writeAtomic disk temp path w) d
      ((disk.save d.files path w).map fun files => ((), files)) := by
  have hremove := fun c => remove_put (temp.fresh d.files) c
  rw [Disk.save]
  cases hdisk : disk w with
  | some e =>
      refine .error (w := d.draft) ?_
      simp [writeAtomic, exec_bind, hdisk, hremove]
  | none =>
      refine .ok (w := d.draft) ?_
      simp [writeAtomic, exec_bind, hdisk, rename, put_put, Files.find?_put_self, hremove,
        WorkbookFile.save]

theorem commits_replaceSheet (disk : Disk) (temp : TempNames) (path : Option String)
    (name : String) (t : TextTable) (d : Desk) :
    Commits (replaceSheet disk temp path name t) d
      ((written disk d.files path name t).map fun files => ((), files)) := by
  have hredraft := drafts_redraft path name t d
  rw [written]
  cases hw : WorkbookFile.openFile d.files path >>= fun w => w.replaceSheet name t with
  | error e =>
      rw [hw] at hredraft
      obtain _ | @⟨_, draft, hexec⟩ := hredraft
      refine .error (w := draft) ?_
      rw [replaceSheet, exec_bind, hexec]
  | ok w =>
      rw [hw] at hredraft
      obtain ⟨hexec⟩ | _ := hredraft
      refine .of_exec_eq (w := w) ?_ (commits_writeAtomic disk temp path w ⟨d.files, w⟩)
      rw [replaceSheet, exec_bind, hexec]
      simp only [exec_bind, exec_get]

/-- The old sheet is gone from memory and the new one half written when a control character is
met. The files still hold the old one. -/
example :
    let files : Files := ⟨[(Path.ofText "book.xlsx",
      .workbook ⟨[⟨"People", [[some ⟨.text "id", true⟩]], [], []⟩]⟩)]⟩
    (exec (replaceSheet (fun _ => none) default (some "book.xlsx") "people"
      ⟨["id"], [["1"], ["\x01"]]⟩) ⟨files, ⟨[]⟩⟩).2 =
    ⟨files, ⟨[⟨"people", [[some ⟨.text "id", true⟩], [some ⟨.text "1", false⟩], []],
      [], []⟩]⟩⟩ := by
  rfl

end TableQuery.Staging
