import TableQuery.Proofs.Engine.Answers
import TableQuery.Proofs.Rows.Join

/-!
# Merging is concatenation

A row that is made by assignments has its columns in the order of their first assignment, and each
holds what it was assigned last. Two such rows merge into the row of both lists of assignments, one
behind the other. So a joined row is the row that an answer with the columns of both sides gives,
merging is associative, and columns may be chosen before rows are merged or after it.
-/

namespace TableQuery

theorem filter_assign (p : String → Bool) (name : String) (value : Value)
    (cells : List (String × Value)) :
    (assign name value cells).filter (fun cell => p cell.1) =
      if p name then assign name value (cells.filter fun cell => p cell.1)
      else cells.filter fun cell => p cell.1 := by
  induction cells with
  | nil => cases h : p name <;> simp [assign, h]
  | cons cell cells ih =>
      obtain ⟨n, v⟩ := cell
      by_cases hn : n = name
      · subst hn
        cases h : p n <;> simp [assign, h]
      · rw [assign, if_neg hn, List.filter_cons, ih]
        cases h : p n <;> cases h' : p name <;> simp [assign, hn, h]

namespace Row

/-- The columns stand in the order of their first assignment. -/
theorem columns_ofList_eq_eraseDups (cells : List (String × Value)) :
    (ofList cells).columns = (cells.map Prod.fst).eraseDups := by
  induction cells using List.reverseRecOn with
  | nil => rfl
  | append_singleton cells cell ih =>
      obtain ⟨n, v⟩ := cell
      rw [ofList_append_singleton, columns_set, ih, List.map_append, List.eraseDups_append,
        List.map_singleton, List.removeAll, List.filter_singleton]
      by_cases h : n ∈ cells.map Prod.fst
      · have hnotElem : (!(cells.map Prod.fst).elem n) = false := by simpa using h
        rw [if_pos (List.mem_eraseDups.2 h), hnotElem]
        simp
      · have hnotElem : (!(cells.map Prod.fst).elem n) = true := by simpa using h
        rw [if_neg (mt List.mem_eraseDups.1 h), hnotElem]
        rfl

theorem cells_project (r : Row) (names : List String) :
    (r.project names).cells = r.cells.filter fun cell => names.contains cell.1 := rfl

theorem project_set (r : Row) (names : List String) (name : String) (value : Value) :
    (r.set name value).project names =
      if names.contains name then (r.project names).set name value else r.project names := by
  apply eq_of_cells_eq
  rw [cells_project, cells_set, filter_assign names.contains]
  split <;> rfl

theorem project_ofList (cells : List (String × Value)) (names : List String) :
    (ofList cells).project names =
      ofList (cells.filter fun cell => names.contains cell.1) := by
  induction cells using List.reverseRecOn with
  | nil => rfl
  | append_singleton cells cell ih =>
      obtain ⟨n, v⟩ := cell
      rw [ofList_append_singleton, project_set, ih, List.filter_append, List.filter_singleton]
      cases names.contains n with
      | true => exact (ofList_append_singleton _ n v).symm
      | false => rw [if_neg Bool.false_ne_true, cond_false, List.append_nil]

theorem merge_eq_ofList (a b : Row) : a.merge b = ofList (a.cells ++ b.cells) := by
  rw [ofList_append, ofList_cells, ofList_cells]

theorem merge_assoc (a b c : Row) : (a.merge b).merge c = a.merge (b.merge c) := by
  calc
    (a.merge b).merge c = (ofList (a.cells ++ b.cells)).merge (ofList c.cells) := by
      rw [merge_eq_ofList a b, ofList_cells]
    _ = (ofList a.cells).merge (ofList (b.cells ++ c.cells)) := by
      rw [← ofList_append, List.append_assoc, ofList_append]
    _ = a.merge (b.merge c) := by rw [← merge_eq_ofList b c, ofList_cells]

theorem empty_merge (r : Row) : empty.merge r = r :=
  ofList_cells r

theorem merge_empty (r : Row) : r.merge empty = r :=
  rfl

/-- Columns may be chosen before rows are merged or after it. -/
theorem project_merge (a b : Row) (names : List String) :
    (a.merge b).project names = (a.project names).merge (b.project names) := by
  rw [merge_eq_ofList a b, project_ofList, List.filter_append, merge_eq_ofList, cells_project,
    cells_project]

theorem zip_columns_values (a b : Row) :
    (a.columns ++ b.columns).zip (a.values ++ b.values) = a.cells ++ b.cells := by
  have hlength : a.columns.length = a.values.length := by simp [columns, values]
  rw [List.zip_append hlength]
  simp [columns, values, List.zip_map', List.map_id']

end Row

namespace AnswerOf

variable {α : Type} {value : α → Except ConversionError Value}

theorem cells_append (xs ys : List (String × α)) :
    cells value (xs ++ ys) = cells value xs >>= fun left => (cells value ys).map (left ++ ·) := by
  induction xs with
  | nil => cases h : cells value ys <;> rw [List.nil_append, h] <;> rfl
  | cons x xs ih =>
      obtain ⟨name, d⟩ := x
      rw [List.cons_append, cells, cells]
      cases value d with
      | error e => rfl
      | ok v =>
          simp only [ih]
          cases cells value xs with
          | error e => rfl
          | ok left => cases cells value ys <;> rfl

/-- The row of an answer with the columns of two sides is the merge of the rows of the sides. -/
theorem rowOf_append {columns : List String} {data : List α}
    (h : data.length = columns.length) (columns' : List String) (data' : List α) :
    rowOf value (columns ++ columns') (data ++ data') =
      rowOf value columns data >>= fun left => (rowOf value columns' data').map left.merge := by
  rw [rowOf, rowOf, rowOf, List.zip_append h.symm, cells_append]
  cases cells value (columns.zip data) with
  | error e => rfl
  | ok left =>
      cases cells value (columns'.zip data') with
      | error e => rfl
      | ok right => exact congrArg Except.ok (Row.ofList_append left right)

/-- An answer gives the row in which its columns are assigned its values one after the other. -/
theorem rowOf_of_mapM {columns : List String} {data : List α} {values : List Value}
    (h : data.mapM value = .ok values) :
    rowOf value columns data = .ok (Row.ofList (columns.zip values)) := by
  have hcells : cells value (columns.zip data) = .ok (columns.zip values) := by
    rw [cells_eq_ok_iff]
    induction mapM_eq_ok_iff.1 h generalizing columns with
    | nil => simp
    | cons hd _ ih =>
        cases columns with
        | nil => exact .nil
        | cons column columns => exact .cons ⟨rfl, hd⟩ (ih (mapM_eq_ok_iff.2 ‹_›))
  rw [rowOf, hcells]
  rfl

end AnswerOf

namespace Row

/-- What merging is, for rows of a join and for rows of an answer. A column stands where it was
assigned first and holds what it was assigned last, whether within one row or across both. -/
structure Concatenates : Prop where
  merged : ∀ xs ys, (ofList xs).merge (ofList ys) = ofList (xs ++ ys)
  columns : ∀ cells, (ofList cells).columns = (cells.map Prod.fst).eraseDups
  values : ∀ cells column, (ofList cells).get? column = cells.reverse.lookup column
  answered : ∀ columns data columns' data', data.length = columns.length →
    Answer.rowOf (columns ++ columns') (data ++ data') =
      Answer.rowOf columns data >>= fun left => (Answer.rowOf columns' data').map left.merge
  joined : ∀ left right leftColumn rightColumn rows,
    Rows.join left right leftColumn rightColumn = .ok rows → ∀ row ∈ rows,
      ∃ l ∈ left, ∃ r ∈ right, row = ofList (l.cells ++ r.cells) ∧
        ∀ data, data.mapM Value.ofDatum = .ok (l.values ++ r.values) →
          Answer.rowOf (l.columns ++ r.columns) data = .ok row
  assoc : ∀ a b c : Row, (a.merge b).merge c = a.merge (b.merge c)
  empty_left : ∀ r : Row, empty.merge r = r
  empty_right : ∀ r : Row, r.merge empty = r
  projected : ∀ (a b : Row) names,
    (a.merge b).project names = (a.project names).merge (b.project names)

/-- Merging rows is appending their assignments, on either engine. -/
theorem concatenates : Concatenates := by
  constructor
  case merged => exact fun xs ys => (ofList_append xs ys).symm
  case columns => exact columns_ofList_eq_eraseDups
  case values => exact get?_ofList
  case answered => exact fun _ _ columns' data' h => AnswerOf.rowOf_append h columns' data'
  case joined =>
    intro left right leftColumn rightColumn rows hjoin row hrow
    rw [Rows.eq_nestedLoop_of_join hjoin, Rows.mem_nestedLoop] at hrow
    obtain ⟨l, hl, r, hr, -, rfl⟩ := hrow
    refine ⟨l, hl, r, hr, merge_eq_ofList l r, fun data hdata => ?_⟩
    rw [Answer.rowOf, AnswerOf.rowOf_of_mapM hdata, zip_columns_values, merge_eq_ofList]
  case assoc => exact merge_assoc
  case empty_left => exact empty_merge
  case empty_right => exact merge_empty
  case projected => exact project_merge

/-- A person, and another one with the same number, a name and a city. -/
def namesakes : Row × Row :=
  (ofList [("id", .text "1"), ("name", .text "A")],
    ofList [("city", .text "Oslo"), ("id", .text "0"), ("name", .text "B"), ("id", .text "1")])

theorem concatenates_namesakes :
    (Rows.join [namesakes.1] [namesakes.2] "id" "id" =
        .ok [ofList [("id", .text "1"), ("name", .text "B"), ("city", .text "Oslo")]] ∧
      [Datum.text "1", .text "A", .text "Oslo", .text "1", .text "B"].mapM Value.ofDatum =
        .ok (namesakes.1.values ++ namesakes.2.values)) ∧
    Answer.rowOf ["id", "name", "city", "id", "name"]
        [.text "1", .text "A", .text "Oslo", .text "1", .text "B"] =
      .ok (ofList [("id", .text "1"), ("name", .text "B"), ("city", .text "Oslo")]) := by
  have hjoin : Rows.join [namesakes.1] [namesakes.2] "id" "id" =
      .ok [ofList [("id", .text "1"), ("name", .text "B"), ("city", .text "Oslo")]] := rfl
  have hdata : [Datum.text "1", .text "A", .text "Oslo", .text "1", .text "B"].mapM
      Value.ofDatum = .ok (namesakes.1.values ++ namesakes.2.values) := rfl
  refine ⟨⟨hjoin, hdata⟩, ?_⟩
  obtain ⟨l, hl, r, hr, -, hanswer⟩ :=
    concatenates.joined _ _ _ _ _ hjoin _ (List.mem_singleton.2 rfl)
  rw [List.mem_singleton] at hl hr
  subst hl hr
  exact hanswer _ hdata

end Row

end TableQuery
