import TableQuery.Proofs.Tabular.Uniform

/-!
# Answers hold texts

A sheet is loaded as rows of texts. Merging, filtering, ordering, projecting and paging make no
value, so every value of an answer is a text, and an answer whose rows have the same columns is
given by these and by its texts.
-/

namespace TableQuery

/-- All values of the row are texts. -/
def Row.OfTexts (r : Row) : Prop :=
  ∀ value ∈ r.values, ∃ s, value = .text s

/-- The words of the values of a row. -/
def Row.texts (r : Row) : List String :=
  r.values.map Value.words

theorem Row.length_texts (r : Row) : r.texts.length = r.columns.length := by
  rw [texts, values, columns, List.length_map, List.length_map, List.length_map]

theorem mem_assign {name : String} {value : Value} {cells : List (String × Value)}
    {cell : String × Value} (h : cell ∈ assign name value cells) :
    cell = (name, value) ∨ cell ∈ cells := by
  induction cells with
  | nil => exact .inl (List.mem_singleton.1 h)
  | cons first cells ih =>
      obtain ⟨n, v⟩ := first
      rw [assign] at h
      split_ifs at h with hn
      · subst hn
        exact (List.mem_cons.1 h).imp_right (List.mem_cons_of_mem _)
      · rcases List.mem_cons.1 h with rfl | h
        · exact .inr List.mem_cons_self
        · exact (ih h).imp_right (List.mem_cons_of_mem _)

namespace Row

theorem mem_setAll {cells : List (String × Value)} {r : Row} {cell : String × Value}
    (h : cell ∈ (r.setAll cells).cells) : cell ∈ cells ∨ cell ∈ r.cells := by
  induction cells generalizing r with
  | nil => exact .inr h
  | cons first cells ih =>
      rcases ih h with h | h
      · exact .inl (List.mem_cons_of_mem _ h)
      · rcases mem_assign h with rfl | h
        · exact .inl List.mem_cons_self
        · exact .inr h

namespace OfTexts

variable {r : Row}

theorem merge {left right : Row} (hleft : left.OfTexts) (hright : right.OfTexts) :
    (left.merge right).OfTexts := by
  intro value hvalue
  obtain ⟨cell, hcell, rfl⟩ := List.mem_map.1 hvalue
  rcases mem_setAll hcell with hcell | hcell
  · exact hright _ (List.mem_map_of_mem hcell)
  · exact hleft _ (List.mem_map_of_mem hcell)

theorem project (h : r.OfTexts) (names : List String) : (r.project names).OfTexts := by
  intro value hvalue
  obtain ⟨cell, hcell, rfl⟩ := List.mem_map.1 hvalue
  exact h _ (List.mem_map_of_mem (List.mem_of_mem_filter hcell))

theorem rowOf (header texts : List String) : (TextTable.rowOf header texts).OfTexts := by
  intro value hvalue
  obtain ⟨cell, hcell, rfl⟩ := List.mem_map.1 hvalue
  rcases mem_setAll hcell with hcell | hcell
  · obtain ⟨given, -, rfl⟩ := List.mem_map.1 hcell
    exact ⟨given.2, rfl⟩
  · cases hcell

theorem map_text_texts (h : r.OfTexts) : r.texts.map .text = r.values := by
  conv => rhs; rw [← List.map_id r.values]
  rw [texts, List.map_map]
  apply List.map_congr_left
  intro value hvalue
  obtain ⟨s, rfl⟩ := h value hvalue
  rfl

/-- A row of texts is the row of its columns and its texts. -/
theorem rowOf_texts (h : r.OfTexts) : TextTable.rowOf r.columns r.texts = r := by
  have hnodup : r.columns.Nodup := r.nodup
  have hcells : (TextTable.rowOf r.columns r.texts).cells = r.columns.zip r.values := by
    rw [TextTable.cells_rowOf hnodup r.length_texts, h.map_text_texts]
  apply eq_of_cells_eq
  rw [hcells, columns, values, List.zip_map']
  exact List.map_id r.cells

end OfTexts

end Row

namespace Rows

/-- All values of the rows are texts. -/
def OfTexts (rows : List Row) : Prop :=
  ∀ row ∈ rows, row.OfTexts

namespace OfTexts

variable {rows : List Row}

theorem join {right joined : List Row} {leftColumn rightColumn : String} (h : OfTexts rows)
    (hright : OfTexts right) (hjoin : Rows.join rows right leftColumn rightColumn = .ok joined) :
    OfTexts joined := by
  rw [eq_nestedLoop_of_join hjoin]
  intro row hrow
  obtain ⟨l, hl, r, hr, -, rfl⟩ := mem_nestedLoop.1 hrow
  exact (h l hl).merge (hright r hr)

theorem mono {others : List Row} (h : OfTexts rows) (hsub : others ⊆ rows) : OfTexts others :=
  fun row hrow => h row (hsub hrow)

theorem filter (h : OfTexts rows) (text : Option String) : OfTexts (Rows.filter rows text) := by
  rw [Rows.filter]
  split
  · exact h.mono List.filter_sublist.subset
  · exact h

theorem project (h : OfTexts rows) (names : List String) : OfTexts (Rows.project rows names) := by
  rw [Rows.project]
  split
  · exact h
  · intro row hrow
    obtain ⟨r, hr, rfl⟩ := List.mem_map.1 hrow
    exact (h r hr).project names

end OfTexts

end Rows

theorem Book.ofTexts_of_load {b : Book} {name : String} {rows : List Row}
    (h : b.load name = .ok rows) : Rows.OfTexts rows := by
  rw [load] at h
  split at h
  · cases h
  · next t _ =>
      rw [TextTable.toRows] at h
      split at h
      · cases h
      · cases h
        intro row hrow
        obtain ⟨texts, -, rfl⟩ := List.mem_map.1 hrow
        exact .rowOf t.header texts

namespace Tabular

theorem ofTexts_of_joinSheets {b : Book} {joins : List JoinSpec} {rows joined : List Row}
    (hrows : Rows.OfTexts rows) (h : joinSheets b rows joins = .ok joined) :
    Rows.OfTexts joined := by
  induction joins generalizing rows with
  | nil =>
      cases h
      exact hrows
  | cons j joins ih =>
      obtain ⟨right, next, hload, hjoin, hrest⟩ := exists_of_joinSheets_cons h
      exact ih (hrows.join (Book.ofTexts_of_load hload) hjoin) hrest

theorem ofTexts_of_rows {deadline : Option Deadline} {b : Book} {r : Request} {rows : List Row}
    (h : Tabular.rows deadline b r = .ok rows) : Rows.OfTexts rows := by
  obtain ⟨full, hfull, rfl⟩ := map_eq_ok_iff.1 h
  obtain ⟨base, joined, hload, hjoined, hordered⟩ := exists_of_fullRows hfull
  have hfull' : Rows.OfTexts full :=
    ((ofTexts_of_joinSheets (Book.ofTexts_of_load hload) hjoined).filter r.filter).mono
      (Rows.order_perm hordered).subset
  exact (hfull'.project r.projection).mono (Rows.page_sublist _ _ _).subset

end Tabular

end TableQuery
