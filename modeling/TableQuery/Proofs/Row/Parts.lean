import TableQuery.Proofs.Row.Concatenation

/-!
# Rows in two parts

A row can be kept in two parts, a list of its columns and a table of its cells. An assignment
changes first the one and then the other, and nothing else holds them together: a listed column
need not have a cell, and a name may be listed twice. The parts show a row if they have its columns
and its values. Assignments keep this up, and parts that show a row can be read without fail, with
all that the row has.
-/

namespace TableQuery.Row

theorem isSome_get? (r : Row) (name : String) : (r.get? name).isSome ↔ name ∈ r.columns := by
  constructor
  · intro hsome
    by_contra hname
    rw [get?, lookup_eq_none_of_not_mem hname] at hsome
    cases hsome
  · intro hname
    obtain ⟨cell, hcell, rfl⟩ := List.mem_map.1 hname
    rw [get?_of_mem hcell]
    rfl

/-- A row as a list of columns and a table of cells. -/
structure Parts where
  columns : List String := []
  cells : Std.HashMap String Value := ∅

/-- A column is read that has no cell. -/
structure MissingCell where
  column : String
  deriving DecidableEq

namespace Parts

def get? (p : Parts) (name : String) : Option Value :=
  p.cells[name]?

def has (p : Parts) (name : String) : Bool :=
  p.cells.contains name

def length (p : Parts) : Nat :=
  p.columns.length

/-- The value of a column that has to be there. -/
def cell (p : Parts) (name : String) : Except MissingCell Value :=
  match p.get? name with
  | some value => .ok value
  | none => .error ⟨name⟩

def values (p : Parts) : Except MissingCell (List Value) :=
  p.columns.mapM p.cell

def items (p : Parts) : Except MissingCell (List (String × Value)) :=
  p.columns.mapM fun name => (p.cell name).map (name, ·)

/-- The record that the items make one after the other, where a repeated name has one entry. -/
def record (p : Parts) : Except MissingCell (List (String × Primitive)) :=
  p.items.map fun cells => (Row.ofList cells).record

/-- Lists a column at the end, unless it has a cell. -/
def enlist (p : Parts) (name : String) : Parts :=
  if p.has name then p else { p with columns := p.columns ++ [name] }

/-- Puts a value into the cell of a column. -/
def put (p : Parts) (name : String) (value : Value) : Parts :=
  { p with cells := p.cells.insert name value }

def set (p : Parts) (name : String) (value : Value) : Parts :=
  (p.enlist name).put name value

def setAll (p : Parts) (cells : List (String × Value)) : Parts :=
  cells.foldl (fun p cell => p.set cell.1 cell.2) p

def ofList (cells : List (String × Value)) : Parts :=
  setAll {} cells

section Assignments

variable (p : Parts) (name : String) (value : Value)

theorem columns_set :
    (p.set name value).columns = if p.has name then p.columns else p.columns ++ [name] := by
  rw [set, enlist]
  split <;> rfl

theorem cells_set : (p.set name value).cells = p.cells.insert name value := by
  rw [set, enlist]
  split <;> rfl

theorem get?_set (column : String) :
    (p.set name value).get? column = if column = name then some value else p.get? column := by
  rw [get?, cells_set, Std.HashMap.getElem?_insert, get?]
  simp only [beq_iff_eq, @eq_comm _ name]

theorem setAll_append (xs ys : List (String × Value)) :
    p.setAll (xs ++ ys) = (p.setAll xs).setAll ys := by
  rw [setAll, List.foldl_append]
  rfl

end Assignments

/-- The parts have the columns and the values of a row. -/
structure Shows (p : Parts) (r : Row) : Prop where
  columns : p.columns = r.columns
  get? : ∀ name, p.get? name = r.get? name

theorem shows_empty : Shows {} empty where
  columns := rfl
  get? _ := Std.HashMap.getElem?_empty

namespace Shows

variable {p : Parts} {r : Row}

theorem has_iff (h : p.Shows r) (name : String) : p.has name ↔ name ∈ p.columns := by
  rw [has, Std.HashMap.contains_eq_isSome_getElem?, h.columns, ← isSome_get?, ← h.get?]
  rfl

/-- An assignment changes both parts as it changes the row. -/
theorem set (h : p.Shows r) (name : String) (value : Value) :
    (p.set name value).Shows (r.set name value) where
  columns := by
    rw [columns_set, Row.columns_set, ← h.columns]
    simp only [h.has_iff]
  get? column := by rw [get?_set, Row.get?_set, h.get?]

theorem setAll (h : p.Shows r) (cells : List (String × Value)) :
    (p.setAll cells).Shows (r.setAll cells) := by
  induction cells generalizing p r with
  | nil => exact h
  | cons cell cells ih => exact ih (h.set cell.1 cell.2)

theorem nodup (h : p.Shows r) : p.columns.Nodup := by
  rw [h.columns]
  exact r.nodup

theorem cell_of_mem (h : p.Shows r) {cell : String × Value} (hcell : cell ∈ r.cells) :
    p.cell cell.1 = .ok cell.2 := by
  rw [Parts.cell, h.get?, get?_of_mem hcell]

theorem values (h : p.Shows r) : p.values = .ok r.values := by
  rw [Parts.values, h.columns, Row.columns, List.mapM_map]
  exact mapM_eq_ok_map fun _ hcell => h.cell_of_mem hcell

theorem items (h : p.Shows r) : p.items = .ok r.cells := by
  have hmapM : r.cells.mapM (fun cell => (p.cell cell.1).map (cell.1, ·)) =
      .ok (r.cells.map id) := by
    apply mapM_eq_ok_map
    intro cell hcell
    rw [h.cell_of_mem hcell]
    rfl
  rw [List.map_id] at hmapM
  rw [Parts.items, h.columns, Row.columns, List.mapM_map]
  exact hmapM

theorem record (h : p.Shows r) : p.record = .ok r.record := by
  rw [Parts.record, h.items, Except.map, ofList_cells]

/-- The values, the items and the record stand beside the columns, one for each. -/
theorem aligned (h : p.Shows r) :
    ∃ values, p.values = .ok values ∧ values.length = p.length ∧
      p.items = .ok (p.columns.zip values) ∧
      p.record = .ok (p.columns.zip (values.map Value.primitive)) := by
  have hlength : r.values.length = p.length := by
    rw [length, h.columns, Row.columns, Row.values, List.length_map, List.length_map]
  have hcells : p.columns.zip r.values = r.cells := by
    rw [h.columns, Row.columns, Row.values, List.zip_map', List.map_id']
  have hrecord : p.columns.zip (r.values.map Value.primitive) = r.record := by
    rw [List.zip_map_right, hcells]
    rfl
  refine ⟨r.values, h.values, hlength, ?_, ?_⟩
  · rw [hcells, h.items]
  · rw [hrecord, h.record]

end Shows

end Parts

end TableQuery.Row
