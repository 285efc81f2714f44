import Mathlib.Logic.Function.Basic
import TableQuery.Proofs.Reading
import TableQuery.Storage.WorkbookFile

/-!
# Copying a workbook into place

Files are looked at byte by byte. A file is made the workbook of a path in stages: it is opened,
copied to a fresh file, and the copy takes the place of the old workbook at last. Whatever stage
fails, the files are as they were.
-/

namespace TableQuery

namespace Path

theorem isWithin_join (directory : Path) (part : String) :
    directory.isWithin (directory.join part) = true := by
  simp [isWithin, join]

end Path

namespace WorkbookFile

variable {path : Option String}

theorem configured_eq_error {f : Failure} (h : configured path = .error f) :
    f = .query .workbookUnset := by
  unfold configured at h
  split at h
  · cases h
    rfl
  · split at h <;> cases h
    rfl

theorem getD_of_configured {s : String} (h : configured path = .ok s) : path.getD "" = s := by
  unfold configured at h
  split at h
  · cases h
  · split at h <;> cases h
    rfl

end WorkbookFile

abbrev Bytes := List UInt8

/-- Files by path, with their bytes. -/
abbrev Shelf := Path → Option Bytes

namespace Shelf

variable {shelf : Shelf} {p q : Path} {b c : Bytes}

def put (shelf : Shelf) (p : Path) (b : Bytes) : Shelf :=
  Function.update shelf p (some b)

def remove (shelf : Shelf) (p : Path) : Shelf :=
  Function.update shelf p none

/-- The files after one has taken the place of another. -/
def rename (shelf : Shelf) (source target : Path) : Shelf :=
  match shelf source with
  | some b => (shelf.remove source).put target b
  | none => shelf

@[simp] theorem put_self : shelf.put p b p = some b := by
  rw [put, Function.update_self]

theorem put_of_ne (h : q ≠ p) : shelf.put p b q = shelf q := by
  rw [put, Function.update_of_ne h]

@[simp] theorem remove_self : shelf.remove p p = none := by
  rw [remove, Function.update_self]

theorem remove_of_ne (h : q ≠ p) : shelf.remove p q = shelf q := by
  rw [remove, Function.update_of_ne h]

@[simp] theorem put_put : (shelf.put p b).put p c = shelf.put p c := by
  rw [put, put, put, Function.update_idem]

@[simp] theorem remove_put : (shelf.put p b).remove p = shelf.remove p := by
  rw [remove, put, remove, Function.update_idem]

theorem put_of_eq (h : shelf p = some b) : shelf.put p b = shelf := by
  rw [put, ← h, Function.update_eq_self]

theorem remove_of_eq (h : shelf p = none) : shelf.remove p = shelf := by
  rw [remove, ← h, Function.update_eq_self]

end Shelf

/-- What the files are kept by: how bytes are read, which names are fresh, and whether a file can be
copied. Neither of the last two ends with a query error. -/
structure Machine where
  content : Bytes → Content
  temp : Shelf → Except Failure Path
  copyFault : Bytes → Option Failure
  fresh : ∀ shelf p, temp shelf = .ok p → shelf p = none
  temp_ne_query : ∀ shelf e, temp shelf ≠ .error (.query e)
  copyFault_ne_query : ∀ b e, copyFault b ≠ some (.query e)

namespace Machine

variable (m : Machine)

/-- Copies a file to a fresh one, which then takes the place of another. -/
def copyInto (source target : Path) (shelf : Shelf) : Except Failure Unit × Shelf :=
  match m.temp shelf with
  | .error f => (.error f, shelf)
  | .ok temp =>
    let opened := shelf.put temp []
    match shelf source with
    | none => (.error (.fileMissing source.text), opened.remove temp)
    | some b =>
      match m.copyFault b with
      | some f => (.error f, opened.remove temp)
      | none => (.ok (), (opened.put temp b).rename temp target)

/-- Makes a file the workbook at the configured path, and tells that path. -/
def install (path : Option String) (source : Path) (shelf : Shelf) :
    Except Failure Path × Shelf :=
  match WorkbookFile.configured path with
  | .error e => (.error e, shelf)
  | .ok s =>
    match (shelf source).map m.content with
    | some (.workbook _) =>
      match m.copyInto source (Path.ofText s) shelf with
      | (.ok (), shelf') => (.ok (Path.ofText s), shelf')
      | (.error f, shelf') => (.error f, shelf')
    | _ => (.error .notAWorkbook, shelf)

/-- Why bytes cannot be copied, if they cannot. -/
def copied (shelf : Shelf) (b : Bytes) : Except Failure Unit :=
  m.temp shelf >>= fun _ =>
    match m.copyFault b with
    | some f => .error f
    | none => .ok ()

/-- The path of the workbook that bytes were made, or why they were not. -/
def installed (path : Option String) (shelf : Shelf) (b : Bytes) : Except Failure Path :=
  WorkbookFile.configured path >>= fun s =>
    match m.content b with
    | .workbook _ => (m.copied shelf b).map fun _ => Path.ofText s
    | _ => .error .notAWorkbook

section Installing

variable {m} {path : Option String} {source target : Path} {shelf : Shelf} {b : Bytes}

/-- The fresh file is gone in the end, whether the copy was made or not. -/
theorem copyInto_of_present (h : shelf source = some b) :
    m.copyInto source target shelf = match m.copied shelf b with
      | .ok () => (.ok (), shelf.put target b)
      | .error f => (.error f, shelf) := by
  rw [copyInto, copied]
  cases htemp : m.temp shelf with
  | error f => rfl
  | ok temp =>
      have hremove (c : Bytes) : (shelf.put temp c).remove temp = shelf := by
        rw [Shelf.remove_put, Shelf.remove_of_eq (m.fresh shelf temp htemp)]
      simp only [h]
      cases hfault : m.copyFault b with
      | some f => simp [bind, Except.bind, hremove]
      | none => simp [bind, Except.bind, Shelf.rename, hremove]

/-- A file becomes the workbook, or nothing changes. -/
theorem install_of_present (h : shelf source = some b) :
    m.install path source shelf = match m.installed path shelf b with
      | .ok active => (.ok active, shelf.put active b)
      | .error f => (.error f, shelf) := by
  rw [install, installed]
  cases WorkbookFile.configured path with
  | error e => rfl
  | ok s =>
      simp only [h, Option.map_some, copyInto_of_present h, bind, Except.bind]
      cases m.content b with
      | workbook w =>
          cases m.copied shelf b with
          | ok _ => rfl
          | error f => rfl
      | database d => rfl
      | text t => rfl

theorem installed_of_error {f : Failure} (h : WorkbookFile.configured path = .error f) :
    m.installed path shelf b = .error f := by
  rw [installed, h]
  rfl

theorem eq_of_installed {s : String} {active : Path}
    (h : WorkbookFile.configured path = .ok s) (hactive : m.installed path shelf b = .ok active) :
    active = Path.ofText s := by
  rw [installed, h] at hactive
  obtain ⟨s', hs, hactive⟩ := bind_eq_ok_iff.1 hactive
  cases hs
  split at hactive
  · obtain ⟨-, -, rfl⟩ := map_eq_ok_iff.1 hactive
    rfl
  · cases hactive

theorem copied_ne_query (e : QueryError) : m.copied shelf b ≠ .error (.query e) := by
  rw [copied]
  cases htemp : m.temp shelf with
  | error f =>
      have hne := m.temp_ne_query shelf e
      rw [htemp] at hne
      rintro ⟨⟩
      exact hne rfl
  | ok temp =>
      have hne := m.copyFault_ne_query b e
      cases hfault : m.copyFault b with
      | none => nofun
      | some f =>
          rw [hfault] at hne
          rintro ⟨⟩
          exact hne rfl

/-- With a path there is no query error. -/
theorem installed_ne_query {s : String} (h : WorkbookFile.configured path = .ok s)
    (e : QueryError) : m.installed path shelf b ≠ .error (.query e) := by
  rw [installed, h]
  change (match m.content b with
    | .workbook _ => (m.copied shelf b).map fun _ => Path.ofText s
    | _ => .error .notAWorkbook) ≠ _
  split
  · exact fun hquery => copied_ne_query e (map_eq_error_iff.1 hquery)
  · nofun

end Installing

end Machine

namespace Files

theorem find?_remove_self (files : Files) (p : Path) : (files.remove p).find? p = none := by
  rw [find?, remove, List.lookup_eq_none_iff]
  intro entry hentry
  rw [bne_comm]
  exact (List.mem_filter.1 hentry).2

theorem find?_remove_of_ne (files : Files) {p q : Path} (h : q ≠ p) :
    (files.remove p).find? q = files.find? q :=
  lookup_filter_ne h files.entries

end Files

end TableQuery
