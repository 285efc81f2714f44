import TableQuery.Value.Basic

/-!
# Rows

A row gives each of its columns a value, in an order. Assigning a column replaces
its value in place or appends it, so a column stands where it was first assigned
and holds what was assigned last.
-/

namespace TableQuery

/-- Assigns a value to a name: in place when the name is there, at the end
otherwise. -/
def assign (name : String) (value : Value) : List (String × Value) → List (String × Value)
  | [] => [(name, value)]
  | (n, v) :: cells =>
    if n = name then (n, value) :: cells else (n, v) :: assign name value cells

theorem map_fst_assign (name : String) (value : Value) (cells : List (String × Value)) :
    (assign name value cells).map Prod.fst =
      if name ∈ cells.map Prod.fst then cells.map Prod.fst
      else cells.map Prod.fst ++ [name] := by
  induction cells with
  | nil => simp [assign]
  | cons cell cells ih =>
    obtain ⟨n, v⟩ := cell
    by_cases h : n = name
    · simp [assign, h]
    · have h' : ¬ name = n := fun e => h e.symm
      simp only [assign, h, if_false, List.map_cons, ih, List.mem_cons, h', false_or]
      split <;> simp

theorem nodup_assign (name : String) (value : Value) {cells : List (String × Value)}
    (h : (cells.map Prod.fst).Nodup) : ((assign name value cells).map Prod.fst).Nodup := by
  rw [map_fst_assign]
  split
  · exact h
  · next hmem =>
    rw [List.nodup_append]
    refine ⟨h, by simp, ?_⟩
    intro a ha b hb hab
    rw [List.mem_singleton] at hb
    subst hb hab
    exact hmem ha

/-- A row of named cells. -/
structure Row where
  cells : List (String × Value)
  nodup : (cells.map Prod.fst).Nodup
  deriving DecidableEq

namespace Row

/-- The row without columns. -/
def empty : Row := ⟨[], List.nodup_nil⟩

/-- The columns in order. -/
def columns (r : Row) : List String :=
  r.cells.map Prod.fst

/-- The values in column order. -/
def values (r : Row) : List Value :=
  r.cells.map Prod.snd

/-- The value of a column, if the row has it. -/
def get? (r : Row) (name : String) : Option Value :=
  r.cells.lookup name

/-- The row has a column. -/
def has (r : Row) (name : String) : Bool :=
  (r.get? name).isSome

/-- The row after an assignment. -/
def set (r : Row) (name : String) (value : Value) : Row :=
  ⟨assign name value r.cells, nodup_assign name value r.nodup⟩

@[simp] theorem cells_set (r : Row) (name : String) (value : Value) :
    (r.set name value).cells = assign name value r.cells := rfl

/-- The row after a list of assignments. -/
def setAll (r : Row) (cells : List (String × Value)) : Row :=
  cells.foldl (fun r cell => r.set cell.1 cell.2) r

/-- The row that a list of assignments makes. -/
def ofList (cells : List (String × Value)) : Row :=
  empty.setAll cells

/-- Two rows in one; a shared column takes the value of the second. -/
def merge (left right : Row) : Row :=
  left.setAll right.cells

@[simp] theorem setAll_nil (r : Row) : r.setAll [] = r := rfl

@[simp] theorem setAll_cons (r : Row) (name : String) (value : Value)
    (cells : List (String × Value)) :
    r.setAll ((name, value) :: cells) = (r.set name value).setAll cells := rfl

theorem setAll_append (r : Row) (xs ys : List (String × Value)) :
    r.setAll (xs ++ ys) = (r.setAll xs).setAll ys := by
  simp [setAll]

/-- The columns among `names`, in the order of the row. -/
def project (r : Row) (names : List String) : Row :=
  ⟨r.cells.filter fun cell => names.contains cell.1, by
    have hsub : (r.cells.filter fun cell => names.contains cell.1).Sublist r.cells :=
      List.filter_sublist
    exact (hsub.map Prod.fst).nodup r.nodup⟩

/-- The record of a row. -/
def record (r : Row) : List (String × Primitive) :=
  r.cells.map fun cell => (cell.1, cell.2.primitive)

/-- The same columns in the same order with equal values. -/
def same (a b : Row) : Bool :=
  a.columns == b.columns && (a.values.zip b.values).all fun (x, y) => x.same y

end Row

end TableQuery
