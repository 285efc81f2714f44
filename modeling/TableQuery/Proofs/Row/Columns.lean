import TableQuery.Proofs.Row.Merge

/-!
# The columns of rows

An assignment adds its column unless it is there. So the columns of a merged row are those of the
first row, and behind them those that only the second one has: they do not depend on the values.
-/

namespace TableQuery

theorem lookup_eq_some_of_mem {cells : List (String × Value)} (h : (cells.map Prod.fst).Nodup)
    {cell : String × Value} (hcell : cell ∈ cells) : cells.lookup cell.1 = some cell.2 := by
  induction cells with
  | nil => cases hcell
  | cons first cells ih =>
      obtain ⟨n, v⟩ := first
      rw [List.map_cons, List.nodup_cons] at h
      rw [lookup_cons_eq_ite]
      rcases List.mem_cons.1 hcell with rfl | hcell
      · rw [if_pos rfl]
      · have hmem : cell.1 ∈ cells.map Prod.fst := List.mem_map_of_mem hcell
        have hne : cell.1 ≠ n := fun heq => h.1 (heq ▸ hmem)
        rw [if_neg hne, ih h.2 hcell]

theorem assign_of_not_mem {name : String} {cells : List (String × Value)}
    (h : name ∉ cells.map Prod.fst) (value : Value) :
    assign name value cells = cells ++ [(name, value)] := by
  induction cells with
  | nil => rfl
  | cons cell cells ih =>
      obtain ⟨n, v⟩ := cell
      rw [List.map_cons, List.mem_cons, not_or] at h
      rw [assign, if_neg (Ne.symm h.1), ih h.2, List.cons_append]

namespace Row

theorem cells_setAll {cells : List (String × Value)} {r : Row}
    (h : (r.columns ++ cells.map Prod.fst).Nodup) : (r.setAll cells).cells = r.cells ++ cells := by
  induction cells generalizing r with
  | nil => rw [setAll_nil, List.append_nil]
  | cons cell cells ih =>
      obtain ⟨n, v⟩ := cell
      rw [List.map_cons] at h
      have hn : n ∉ r.columns := fun hmem =>
        List.disjoint_of_nodup_append h hmem List.mem_cons_self
      have hset : (r.set n v).cells = r.cells ++ [(n, v)] := assign_of_not_mem hn v
      have hcolumns : (r.set n v).columns = r.columns ++ [n] := by
        rw [columns, hset, List.map_append]
        rfl
      have hnodup : ((r.set n v).columns ++ cells.map Prod.fst).Nodup := by
        rw [hcolumns, List.append_assoc]
        exact h
      rw [setAll_cons, ih hnodup, hset, List.append_assoc]
      rfl

theorem cells_ofList {cells : List (String × Value)} (h : (cells.map Prod.fst).Nodup) :
    (ofList cells).cells = cells :=
  cells_setAll h

theorem ofList_cells (r : Row) : ofList r.cells = r :=
  eq_of_cells_eq (cells_ofList r.nodup)

theorem columns_set (r : Row) (name : String) (value : Value) :
    (r.set name value).columns =
      if name ∈ r.columns then r.columns else r.columns ++ [name] :=
  map_fst_assign name value r.cells

theorem columns_setAll {cells : List (String × Value)} (h : (cells.map Prod.fst).Nodup) (r : Row) :
    (r.setAll cells).columns =
      r.columns ++ (cells.map Prod.fst).filter fun name => !r.columns.contains name := by
  induction cells generalizing r with
  | nil => simp
  | cons cell cells ih =>
      obtain ⟨n, v⟩ := cell
      rw [List.map_cons, List.nodup_cons] at h
      rw [setAll_cons, ih h.2, columns_set, List.map_cons]
      by_cases hn : n ∈ r.columns
      · rw [if_pos hn, List.filter_cons_of_neg (by simpa using hn)]
      · -- The later names differ from the new one, so they are filtered alike.
        have hfilter : (cells.map Prod.fst).filter (fun name => !(r.columns ++ [n]).contains name) =
            (cells.map Prod.fst).filter fun name => !r.columns.contains name := by
          apply List.filter_congr
          intro name hname
          have hne : name ≠ n := fun heq => h.1 (heq ▸ hname)
          simp [hne]
        rw [if_neg hn, hfilter, List.filter_cons_of_pos (by simpa using hn), List.append_assoc]
        rfl

theorem columns_ofList {cells : List (String × Value)} (h : (cells.map Prod.fst).Nodup) :
    (ofList cells).columns = cells.map Prod.fst := by
  rw [columns, cells_ofList h]

/-- The columns of the first row, then those that only the second one has. -/
theorem columns_merge (left right : Row) :
    (left.merge right).columns =
      left.columns ++ right.columns.filter fun name => !left.columns.contains name :=
  columns_setAll right.nodup left

theorem columns_project (r : Row) (names : List String) :
    (r.project names).columns = r.columns.filter names.contains := by
  rw [columns, columns, List.filter_map]
  rfl

theorem get?_of_mem {r : Row} {cell : String × Value} (h : cell ∈ r.cells) :
    r.get? cell.1 = some cell.2 :=
  lookup_eq_some_of_mem r.nodup h

end Row

namespace TextTable

theorem cells_rowOf {header texts : List String} (hheader : header.Nodup)
    (hlength : texts.length = header.length) :
    (rowOf header texts).cells = header.zip (texts.map .text) := by
  rw [rowOf, Row.cells_ofList (by rw [map_fst_cells hlength]; exact hheader), List.zip_map_right]
  rfl

/-- A row of a header without repetitions has the names of the header as its columns. -/
theorem columns_rowOf {header texts : List String} (hheader : header.Nodup)
    (hlength : texts.length = header.length) : (rowOf header texts).columns = header := by
  have hfst := map_fst_cells hlength
  rw [rowOf, Row.columns_ofList (by rw [hfst]; exact hheader), hfst]

end TextTable

end TableQuery
