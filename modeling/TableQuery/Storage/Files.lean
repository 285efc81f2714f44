import TableQuery.Database.Basic
import TableQuery.Storage.Path
import TableQuery.Workbook

/-!
# Files

Files by path. Writing a file replaces the one at its path and leaves every other
file as it was. The directories are those that hold a file.
-/

namespace TableQuery

/-- What a file holds. -/
inductive Content
  | workbook (w : Workbook)
  | database (d : Database)
  | text (s : String)

/-- Files by path. -/
structure Files where
  entries : List (Path × Content) := []

namespace Files

/-- The file at a path. -/
def find? (files : Files) (p : Path) : Option Content :=
  files.entries.lookup p

/-- The files after one is written. -/
def put (files : Files) (p : Path) (c : Content) : Files :=
  ⟨(p, c) :: files.entries.filter fun entry => entry.1 != p⟩

/-- The files after one is removed. -/
def remove (files : Files) (p : Path) : Files :=
  ⟨files.entries.filter fun entry => entry.1 != p⟩

/-- A path stands for a file, for a directory that holds one, or for the working
directory. -/
def has (files : Files) (p : Path) : Bool :=
  (p.root == "" && p.parts.isEmpty) || files.entries.any fun entry => p.isWithin entry.1

theorem find?_put_self (files : Files) (p : Path) (c : Content) :
    (files.put p c).find? p = some c := by
  simp [put, find?]

theorem lookup_filter_ne {p q : Path} (h : q ≠ p) (entries : List (Path × Content)) :
    (entries.filter fun entry => entry.1 != p).lookup q = entries.lookup q := by
  induction entries with
  | nil => rfl
  | cons entry entries ih =>
    obtain ⟨r, c⟩ := entry
    by_cases hr : r = p
    · subst hr
      have : (q == r) = false := by simpa using h
      simp [List.lookup_cons, this, ih]
    · by_cases hq : q = r
      · simp [hr, hq]
      · have hq' : (q == r) = false := by simpa using hq
        simp [hr, List.lookup_cons, hq', ih]

theorem find?_put_of_ne (files : Files) {p q : Path} (h : q ≠ p) (c : Content) :
    (files.put p c).find? q = files.find? q := by
  have hb : (q == p) = false := by simpa using h
  simp [put, find?, List.lookup_cons, hb, lookup_filter_ne h]

end Files

end TableQuery
