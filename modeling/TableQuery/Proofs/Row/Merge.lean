import Mathlib.Data.List.Induction
import Mathlib.Data.List.Nodup
import TableQuery.Sheet.Book

/-!
# Merging rows

An assignment puts a value where its column stands, or behind the others. So a column of a
merged row holds the value of the second row if that has the column, and a row made from two
lists of assignments is the merge of the rows made from each.
-/

namespace TableQuery

theorem lookup_cons_eq_ite (name : String) (value : Value) (cells : List (String × Value))
    (column : String) :
    ((name, value) :: cells).lookup column =
      if column = name then some value else cells.lookup column := by
  by_cases h : column = name
  · rw [h, List.lookup_cons_self, if_pos rfl]
  · rw [List.lookup_cons, beq_false_of_ne h, if_neg h]

theorem lookup_assign (name : String) (value : Value) (cells : List (String × Value))
    (column : String) :
    (assign name value cells).lookup column =
      if column = name then some value else cells.lookup column := by
  induction cells with
  | nil => exact lookup_cons_eq_ite name value [] column
  | cons cell cells ih =>
      obtain ⟨n, v⟩ := cell
      rw [assign]
      by_cases hn : n = name
      · rw [if_pos hn, lookup_cons_eq_ite, lookup_cons_eq_ite, hn]
        by_cases h : column = name
        · rw [if_pos h, if_pos h]
        · rw [if_neg h, if_neg h, if_neg h]
      · rw [if_neg hn, lookup_cons_eq_ite, lookup_cons_eq_ite, ih]
        by_cases h : column = n
        · have hname : ¬column = name := fun heq => hn (h ▸ heq)
          rw [if_pos h, if_neg hname, if_pos h]
        · rw [if_neg h, if_neg h]

theorem assign_assign (name : String) (value other : Value) (cells : List (String × Value)) :
    assign name value (assign name other cells) = assign name value cells := by
  induction cells with
  | nil => simp [assign]
  | cons cell cells ih =>
      obtain ⟨n, v⟩ := cell
      rw [assign]
      by_cases hn : n = name
      · rw [if_pos hn, assign, if_pos hn, assign, if_pos hn]
      · rw [if_neg hn, assign, if_neg hn, ih, assign, if_neg hn]

/-- Two assignments can change places when the first column is there already. -/
theorem assign_comm {name other : String} {cells : List (String × Value)} (hne : other ≠ name)
    (h : name ∈ cells.map Prod.fst) (value : Value) (otherValue : Value) :
    assign name value (assign other otherValue cells) =
      assign other otherValue (assign name value cells) := by
  induction cells with
  | nil => simp at h
  | cons cell cells ih =>
      obtain ⟨n, v⟩ := cell
      by_cases hn : n = name
      · have hother : ¬n = other := fun heq => hne (heq ▸ hn)
        simp only [assign, if_neg hother, if_pos hn]
      · have hmem : name ∈ cells.map Prod.fst := by
          rw [List.map_cons] at h
          exact (List.mem_cons.1 h).resolve_left (Ne.symm hn)
        by_cases hother : n = other
        · simp only [assign, if_neg hn, if_pos hother]
        · simp only [assign, if_neg hn, if_neg hother, ih hmem]

theorem lookup_eq_none_of_not_mem {column : String} {cells : List (String × Value)}
    (h : column ∉ cells.map Prod.fst) : cells.lookup column = none := by
  rw [List.lookup_eq_none_iff]
  intro cell hcell
  rw [bne_iff_ne]
  rintro rfl
  exact h (List.mem_map_of_mem hcell)

namespace Row

theorem eq_of_cells_eq {a b : Row} (h : a.cells = b.cells) : a = b := by
  cases a
  cases b
  cases h
  rfl

theorem get?_set (r : Row) (name : String) (value : Value) (column : String) :
    (r.set name value).get? column = if column = name then some value else r.get? column :=
  lookup_assign name value r.cells column

theorem get?_setAll {cells : List (String × Value)} (h : (cells.map Prod.fst).Nodup) (r : Row)
    (column : String) :
    (r.setAll cells).get? column = (cells.lookup column).or (r.get? column) := by
  induction cells generalizing r with
  | nil => simp
  | cons cell cells ih =>
      obtain ⟨n, v⟩ := cell
      rw [List.map_cons, List.nodup_cons] at h
      rw [setAll_cons, ih h.2, get?_set, lookup_cons_eq_ite]
      by_cases hcolumn : column = n
      · have hnone : cells.lookup column = none :=
          lookup_eq_none_of_not_mem (hcolumn ▸ h.1)
        rw [hnone, if_pos hcolumn, if_pos hcolumn]
        rfl
      · rw [if_neg hcolumn, if_neg hcolumn]

/-- A column of a merged row holds what the second row has there, or else the first. -/
theorem get?_merge (left right : Row) (column : String) :
    (left.merge right).get? column = (right.get? column).or (left.get? column) :=
  get?_setAll right.nodup left column

theorem set_set_comm {r : Row} {name other : String} (hne : other ≠ name) (h : name ∈ r.columns)
    (value otherValue : Value) :
    (r.set other otherValue).set name value = (r.set name value).set other otherValue :=
  eq_of_cells_eq (assign_comm hne h value otherValue)

theorem set_setAll_comm {r : Row} {name : String} {cells : List (String × Value)}
    (hr : name ∈ r.columns) (h : name ∉ cells.map Prod.fst) (value : Value) :
    (r.setAll cells).set name value = (r.set name value).setAll cells := by
  induction cells generalizing r with
  | nil => rfl
  | cons cell cells ih =>
      obtain ⟨n, v⟩ := cell
      rw [List.map_cons, List.mem_cons, not_or] at h
      have hmem : name ∈ (r.set n v).columns := by
        rw [columns, cells_set, map_fst_assign]
        split
        · exact hr
        · exact List.mem_append_left _ hr
      rw [setAll_cons, ih hmem h.2, set_set_comm (Ne.symm h.1) hr, setAll_cons]

theorem setAll_assign {cells : List (String × Value)} (h : (cells.map Prod.fst).Nodup) (r : Row)
    (name : String) (value : Value) :
    r.setAll (assign name value cells) = (r.setAll cells).set name value := by
  induction cells generalizing r with
  | nil => rfl
  | cons cell cells ih =>
      obtain ⟨n, v⟩ := cell
      rw [List.map_cons, List.nodup_cons] at h
      rw [assign]
      by_cases hn : n = name
      · have hmem : name ∈ (r.set n v).columns := by
          rw [columns, cells_set, map_fst_assign, hn]
          split
          · assumption
          · exact List.mem_append_right _ (List.mem_singleton.2 rfl)
        have hset : (r.set n v).set name value = r.set name value := by
          rw [hn]
          exact eq_of_cells_eq (assign_assign name value v r.cells)
        rw [if_pos hn, setAll_cons, setAll_cons, set_setAll_comm hmem (hn ▸ h.1), hset, hn]
      · rw [if_neg hn, setAll_cons, setAll_cons, ih h.2]

theorem ofList_append_singleton (cells : List (String × Value)) (name : String) (value : Value) :
    ofList (cells ++ [(name, value)]) = (ofList cells).set name value := by
  rw [ofList, setAll_append]
  rfl

theorem setAll_ofList (r : Row) (cells : List (String × Value)) :
    r.setAll (ofList cells).cells = r.setAll cells := by
  induction cells using List.reverseRecOn with
  | nil => rfl
  | append_singleton cells cell ih =>
      obtain ⟨n, v⟩ := cell
      rw [ofList_append_singleton, cells_set, setAll_assign (ofList cells).nodup, ih, setAll_append]
      rfl

/-- The row of two lists of assignments is the merge of their rows. -/
theorem ofList_append (xs ys : List (String × Value)) :
    ofList (xs ++ ys) = (ofList xs).merge (ofList ys) := by
  rw [merge, setAll_ofList, ofList, setAll_append]
  rfl

end Row

namespace TextTable

theorem rowOf_append {columns header texts more : List String} (h : texts.length = columns.length) :
    rowOf (columns ++ header) (texts ++ more) = (rowOf columns texts).merge (rowOf header more) := by
  rw [rowOf, List.zip_append h.symm, List.map_append, Row.ofList_append]
  rfl

theorem lookup_zip {header : List String} {texts : List String}
    (h : texts.length = header.length) (column : String) :
    ((header.zip texts).map fun (name, s) => (name, Value.text s)).lookup column =
      (texts[header.idxOf column]?).map Value.text := by
  induction header generalizing texts with
  | nil =>
      cases texts with
      | nil => rfl
      | cons s texts => simp at h
  | cons name header ih =>
      cases texts with
      | nil => simp at h
      | cons s texts =>
          have hlength : texts.length = header.length := by simpa using h
          rw [List.zip_cons_cons, List.map_cons, lookup_cons_eq_ite, ih hlength]
          by_cases hname : column = name
          · rw [if_pos hname, hname, List.idxOf_cons_self]
            rfl
          · rw [if_neg hname, List.idxOf_cons_ne _ (Ne.symm hname)]
            rfl

theorem map_fst_cells {header texts : List String} (h : texts.length = header.length) :
    ((header.zip texts).map fun (name, s) => (name, Value.text s)).map Prod.fst = header := by
  rw [List.map_map]
  exact List.map_fst_zip (Nat.le_of_eq h.symm)

/-- In a row of a header without repetitions a column holds the text at its position. -/
theorem get?_rowOf {header texts : List String} (hheader : header.Nodup)
    (hlength : texts.length = header.length) (column : String) :
    (rowOf header texts).get? column = (texts[header.idxOf column]?).map Value.text := by
  have hcells : (((header.zip texts).map fun (name, s) => (name, Value.text s)).map Prod.fst).Nodup := by
    rw [map_fst_cells hlength]
    exact hheader
  have hempty : Row.empty.get? column = none := rfl
  rw [rowOf, Row.ofList, Row.get?_setAll hcells, hempty, Option.or_none, lookup_zip hlength]

end TextTable

end TableQuery
