import TableQuery.Answer
import TableQuery.Proofs.Reading
import TableQuery.Proofs.Row.Columns

/-!
# The rows of an answer

An answer becomes rows exactly when all that is delivered for a column has a value. A column of a
row then holds the value of what was delivered for it, the last one where the column occurs more
than once.
-/

namespace TableQuery

/-- Pairs with the same names and related values give related values to every name. -/
theorem rel_lookup {α β : Type} {p : α → β → Prop} {xs : List (String × α)}
    {ys : List (String × β)} (h : List.Forall₂ (fun x y => x.1 = y.1 ∧ p x.2 y.2) xs ys)
    (name : String) : Option.Rel p (xs.lookup name) (ys.lookup name) := by
  induction h with
  | nil => exact .none
  | @cons x y xs ys hxy hrest ih =>
      obtain ⟨n, a⟩ := x
      obtain ⟨m, b⟩ := y
      obtain ⟨rfl, hp⟩ := hxy
      rw [List.lookup_cons, List.lookup_cons]
      cases name == n with
      | true => exact .some hp
      | false => exact ih

namespace Row

/-- A column that is assigned holds what it was assigned last. -/
theorem get?_ofList (cells : List (String × Value)) (column : String) :
    (ofList cells).get? column = cells.reverse.lookup column := by
  induction cells using List.reverseRecOn with
  | nil => rfl
  | append_singleton cells cell ih =>
      obtain ⟨n, v⟩ := cell
      rw [ofList_append_singleton, get?_set, ih, List.reverse_append, List.reverse_singleton,
        List.singleton_append, lookup_cons_eq_ite]

theorem mem_record_iff {row : Row} {column : String} {p : Primitive} :
    (column, p) ∈ row.record ↔ ∃ v, row.get? column = some v ∧ v.primitive = p := by
  rw [record, List.mem_map]
  constructor
  · rintro ⟨cell, hcell, heq⟩
    obtain ⟨rfl, rfl⟩ := Prod.mk.inj heq
    exact ⟨cell.2, get?_of_mem hcell, rfl⟩
  · rintro ⟨v, hv, rfl⟩
    obtain ⟨before, after, hcells, -⟩ := List.lookup_eq_some_iff.1 hv
    exact ⟨(column, v), hcells ▸ List.mem_append_right _ List.mem_cons_self, rfl⟩

end Row

namespace AnswerOf

variable {α : Type} {value : α → Except ConversionError Value}

/-- What is delivered for a column, the last one where the column occurs more than once. -/
def datum? (columns : List String) (data : List α) (column : String) : Option α :=
  (columns.zip data).reverse.lookup column

section Rows

variable {columns : List String} {data : List α} {row : Row}

theorem cells_eq_ok_iff {named : List (String × α)} {cells : List (String × Value)} :
    AnswerOf.cells value named = .ok cells ↔
      List.Forall₂ (fun x y => x.1 = y.1 ∧ value x.2 = .ok y.2) named cells := by
  induction named generalizing cells with
  | nil =>
      rw [cells_nil, List.forall₂_nil_left_iff, Except.ok.injEq, eq_comm]
  | cons x named ih =>
      obtain ⟨name, d⟩ := x
      rw [AnswerOf.cells, List.forall₂_cons_left_iff]
      cases value d with
      | error e => simp
      | ok v =>
          rw [map_eq_ok_iff]
          constructor
          · rintro ⟨rest, hrest, rfl⟩
            exact ⟨(name, v), rest, ⟨rfl, rfl⟩, ih.1 hrest, rfl⟩
          · rintro ⟨⟨_, _⟩, rest, ⟨rfl, hv⟩, hrest, rfl⟩
            cases hv
            exact ⟨rest, ih.2 hrest, rfl⟩

theorem exists_rowOf_iff : (∃ row, rowOf value columns data = .ok row) ↔
    ∀ named ∈ columns.zip data, ∃ v, value named.2 = .ok v := by
  have hcell (x : String × α) : (∃ y : String × Value, x.1 = y.1 ∧
      value x.2 = .ok y.2) ↔ ∃ v, value x.2 = .ok v :=
    ⟨fun ⟨y, _, hy⟩ => ⟨y.2, hy⟩, fun ⟨v, hv⟩ => ⟨(x.1, v), rfl, hv⟩⟩
  rw [rowOf, exists_map_iff]
  simp only [cells_eq_ok_iff, exists_forall₂_iff, hcell]

/-- A column of a row holds the value of what was delivered for it. -/
theorem rel_get?_of_rowOf (h : rowOf value columns data = .ok row) (column : String) :
    Option.Rel (fun d v => value d = .ok v) (datum? columns data column)
      (row.get? column) := by
  obtain ⟨cells, hcells, rfl⟩ := map_eq_ok_iff.1 h
  rw [Row.get?_ofList]
  exact rel_lookup (List.rel_reverse (cells_eq_ok_iff.1 hcells)) column

end Rows

theorem rowsOf_eq_ok_iff {columns : List String} {rows : List (List α)} {read : List Row} :
    rowsOf value columns rows = .ok read ↔
      List.Forall₂ (fun data row => rowOf value columns data = .ok row) rows read := by
  induction rows generalizing read with
  | nil => rw [rowsOf_nil, List.forall₂_nil_left_iff, Except.ok.injEq, eq_comm]
  | cons data rows ih =>
      rw [rowsOf, List.forall₂_cons_left_iff]
      cases rowOf value columns data with
      | error e => simp
      | ok row =>
          rw [map_eq_ok_iff]
          constructor
          · rintro ⟨rest, hrest, rfl⟩
            exact ⟨row, rest, rfl, ih.1 hrest, rfl⟩
          · rintro ⟨_, rest, hrow, hrest, rfl⟩
            cases hrow
            exact ⟨rest, ih.2 hrest, rfl⟩

section Results

variable {a : AnswerOf α} {result : ResultSet}

theorem read_eq_ok_iff : a.read value = .ok result ↔
    List.Forall₂ (fun data row => rowOf value a.columns data = .ok row) a.rows result.rows ∧
      result.warnings = [] := by
  obtain ⟨rows, warnings⟩ := result
  rw [read, map_eq_ok_iff, ← rowsOf_eq_ok_iff]
  simp only [ResultSet.mk.injEq, eq_comm (a := ([] : List String))]
  exact ⟨fun ⟨read, hread, hrows, hwarnings⟩ => ⟨hrows ▸ hread, hwarnings⟩,
    fun ⟨hread, hwarnings⟩ => ⟨rows, hread, rfl, hwarnings⟩⟩

/-- An answer is read exactly when all that is delivered for a column has a value. -/
theorem exists_read_iff : (∃ result, a.read value = .ok result) ↔
    ∀ data ∈ a.rows, ∀ named ∈ a.columns.zip data, ∃ v, value named.2 = .ok v := by
  rw [read, exists_map_iff]
  simp only [rowsOf_eq_ok_iff, exists_forall₂_iff, exists_rowOf_iff]

/-- The rows of a result stand beside the rows of the answer, column by column. -/
theorem forall₂_rows (h : a.read value = .ok result) :
    List.Forall₂ (fun data row => ∀ column, Option.Rel (fun d v => value d = .ok v)
      (datum? a.columns data column) (row.get? column)) a.rows result.rows :=
  (read_eq_ok_iff.1 h).1.imp fun _ _ hrow => rel_get?_of_rowOf hrow

end Results

section Maps

variable {β : Type} (f : β → α)

end Maps

end AnswerOf

end TableQuery
