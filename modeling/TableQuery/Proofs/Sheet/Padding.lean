import TableQuery.Proofs.Sheet.UsedRange

/-!
# Blank cells around a grid

Blank rows anywhere, as many blank cells in front of every row, and empty cells behind any row
change nothing of what is read: the columns move by as many places and the texts in them stay.
-/

namespace TableQuery.Grid

/-- The row with blank cells in front of it and empty cells behind it. -/
inductive PadsRow (k : Nat) (row : List Datum) : List Datum → Prop
  | mk (front : List Datum) (hlength : front.length = k)
      (hfront : ∀ cell ∈ front, cell.isBlank = true) (n : Nat) :
      PadsRow k row (front ++ row ++ List.replicate n .null)

/-- The grid with blank rows inserted, `k` blank cells in front of every row, and empty cells behind
any row. -/
inductive Pads (k : Nat) : Grid → Grid → Prop
  | nil : Pads k [] []
  | blank {g p : Grid} {row : List Datum} (hrow : ∀ cell ∈ row, cell.isBlank = true)
      (h : Pads k g p) : Pads k g (row :: p)
  | row {g p : Grid} {row padded : List Datum} (hrow : PadsRow k row padded) (h : Pads k g p) :
      Pads k (row :: g) (padded :: p)

section Rows

variable {k : Nat} {row padded : List Datum} {texts : List String} {start width : Nat}
  (h : PadsRow k row padded)
include h

theorem PadsRow.getElem?_add (column : Nat) : padded[k + column]? = row[column]? ∨
    row[column]? = none ∧ padded[k + column]? = some .null := by
  cases h with
  | @mk front hlength hfront n =>
      have hdrop : (front ++ row ++ List.replicate n .null)[k + column]? =
          (row ++ List.replicate n .null)[column]? := by
        rw [List.append_assoc, List.getElem?_append_right (by omega), hlength,
          Nat.add_sub_cancel_left]
      rw [hdrop]
      rcases Nat.lt_or_ge column row.length with hlt | hge
      · exact .inl (List.getElem?_append_left hlt)
      · rw [List.getElem?_append_right hge, List.getElem?_eq_none hge, List.getElem?_replicate]
        split
        · exact .inr ⟨rfl, rfl⟩
        · exact .inl rfl

theorem PadsRow.isFilledAt_add_iff {column : Nat} :
    IsFilledAt padded (k + column) ↔ IsFilledAt row column := by
  rw [IsFilledAt, IsFilledAt]
  rcases h.getElem?_add column with heq | ⟨hnone, hnull⟩
  · rw [heq]
  · rw [hnone, hnull]
    simp [Datum.isBlank]

theorem PadsRow.le_of_isFilledAt {column : Nat} (hfilled : IsFilledAt padded column) :
    k ≤ column := by
  obtain ⟨cell, hcell, hblank⟩ := hfilled
  cases h with
  | @mk front hlength hfront n =>
      by_contra hlt
      rw [List.append_assoc, List.getElem?_append_left (by omega)] at hcell
      rw [hfront cell (List.mem_of_getElem? hcell)] at hblank
      cases hblank

theorem PadsRow.textAt_add (column : Nat) : textAt padded (k + column) = textAt row column := by
  rw [textAt, textAt]
  rcases h.getElem?_add column with heq | ⟨hnone, hnull⟩
  · rw [heq]
  · rw [hnone, hnull]
    rfl

theorem PadsRow.shows (hshows : Shows start width row texts) :
    Shows (k + start) width padded texts := by
  refine ⟨hshows.length, fun j hj => ?_⟩
  rw [hshows.text j hj, Nat.add_assoc, h.textAt_add]

theorem PadsRow.isUsedRow_eq : isUsedRow padded = isUsedRow row := by
  rw [Bool.eq_iff_iff, isUsedRow_iff, isUsedRow_iff]
  constructor
  · rintro ⟨column, hcolumn⟩
    obtain ⟨c, rfl⟩ := Nat.exists_eq_add_of_le (h.le_of_isFilledAt hcolumn)
    exact ⟨c, h.isFilledAt_add_iff.1 hcolumn⟩
  · rintro ⟨column, hcolumn⟩
    exact ⟨k + column, h.isFilledAt_add_iff.2 hcolumn⟩

theorem PadsRow.isLast {last : Nat} (hlast : IsLast row last) : IsLast padded (k + last) := by
  refine ⟨h.isFilledAt_add_iff.2 hlast.filled, fun column hcolumn => ?_⟩
  obtain ⟨c, rfl⟩ := Nat.exists_eq_add_of_le (h.le_of_isFilledAt hcolumn)
  exact Nat.add_le_add_left (hlast.le c (h.isFilledAt_add_iff.1 hcolumn)) k

end Rows

theorem forall₂_shows_of_pads {k start width : Nat} {rest padded : Grid} {rows : List (List String)}
    (h : List.Forall₂ (PadsRow k) rest padded)
    (hshown : List.Forall₂ (Shows start width) rest rows) :
    List.Forall₂ (Shows (k + start) width) padded rows := by
  induction h generalizing rows with
  | nil =>
      cases hshown
      exact .nil
  | cons hrow _ ih =>
      cases hshown with
      | cons hshows hrest => exact .cons (hrow.shows hshows) (ih hrest)

section Grids

variable {k : Nat} {g p : Grid} (h : Pads k g p)
include h

/-- The used rows stay, each of them padded. -/
theorem Pads.forall₂_usedRows : List.Forall₂ (PadsRow k) (usedRows g) (usedRows p) := by
  induction h with
  | nil => exact .nil
  | @blank g p row hrow _ ih =>
      have hunused : usedRows [row] = [] := usedRows_eq_nil_iff.2 (by simpa using hrow)
      rwa [← List.singleton_append, usedRows_append, hunused, List.nil_append]
  | row hrow _ ih =>
      rw [usedRows_cons, usedRows_cons, hrow.isUsedRow_eq]
      split
      · exact .cons hrow ih
      · exact ih

theorem Pads.isLeftmost {start : Nat} (hstart : IsLeftmost g start) :
    IsLeftmost p (k + start) := by
  have hrows := h.forall₂_usedRows
  constructor
  · obtain ⟨row, hrow, hfilled⟩ := hstart.filled
    obtain ⟨padded, hpadded, hpads⟩ :=
      exists_right_of_forall₂ hrows (mem_usedRows_of_isFilledAt hrow hfilled)
    exact ⟨padded, (List.mem_filter.1 hpadded).1, hpads.isFilledAt_add_iff.2 hfilled⟩
  · intro padded hpadded column hcolumn
    obtain ⟨row, hrow, hpads⟩ :=
      exists_right_of_forall₂ hrows.flip (mem_usedRows_of_isFilledAt hpadded hcolumn)
    obtain ⟨c, rfl⟩ := Nat.exists_eq_add_of_le (hpads.le_of_isFilledAt hcolumn)
    have hle := hstart.le row (List.mem_filter.1 hrow).1 c (hpads.isFilledAt_add_iff.1 hcolumn)
    exact Nat.add_le_add_left hle k

/-- Padding leaves the used range as it is. -/
theorem Pads.isUsedRange {t : TextTable} (ht : IsUsedRange g t) : IsUsedRange p t := by
  have hrows := h.forall₂_usedRows
  cases ht with
  | blank hblank =>
      rw [usedRows_eq_nil_iff.2 hblank, List.forall₂_nil_left_iff] at hrows
      exact .blank (usedRows_eq_nil_iff.1 hrows)
  | @used start last first rest header rows hused hstart hlast hheader hshown =>
      have hused : usedRows g = first :: rest := hused
      rw [hused, List.forall₂_cons_left_iff] at hrows
      obtain ⟨first', rest', hfirst, hrest, hused'⟩ := hrows
      have hwidth : last + 1 - start = k + last + 1 - (k + start) := by omega
      rw [hwidth] at hheader hshown
      exact .used hused' (h.isLeftmost hstart) (hfirst.isLast hlast) (hfirst.shows hheader)
        (forall₂_shows_of_pads hrest hshown)

end Grids

/-- Blank cells around a grid leave what is read of it as it is: the used range of both. -/
theorem contents_of_pads {k : Nat} {g p : Grid} (h : Pads k g p) :
    p.contents = g.contents ∧ IsUsedRange g g.contents ∧ IsUsedRange p g.contents := by
  have hrange := isUsedRange_contents g
  have hpadded := h.isUsedRange hrange
  exact ⟨(isUsedRange_contents p).unique hpadded, hrange, hpadded⟩

/-- A grid with a short row and a blank one, and the same grid in a corner further to the right and
further down. -/
theorem contents_of_pads_corner :
    let g : Grid := [[.text "name", .text "age", .null], [.text " "], [.text "Ann"]]
    let p : Grid := [[], [.text "\t"], [.text " ", .null, .text "name", .text "age", .null, .null],
      [.null, .null, .text " "], [.null], [.null, .text "", .text "Ann", .null, .null, .null]]
    Pads 2 g p ∧ g.contents = ⟨["name", "age"], [["Ann", ""]]⟩ ∧ p.contents = g.contents ∧
      IsUsedRange g g.contents ∧ IsUsedRange p g.contents := by
  have hfront : ∀ cells : List Datum, cells.all Datum.isBlank = true →
      ∀ cell ∈ cells, cell.isBlank = true := fun _ => List.all_eq_true.1
  intro g p
  have hpads : Pads 2 g p :=
    .blank (hfront [] rfl) <| .blank (hfront _ rfl) <|
      .row (.mk [.text " ", .null] rfl (hfront _ rfl) 1) <|
      .row (.mk [.null, .null] rfl (hfront _ rfl) 0) <|
      .blank (hfront _ rfl) <|
      .row (.mk [.null, .text ""] rfl (hfront _ rfl) 3) .nil
  exact ⟨hpads, rfl, contents_of_pads hpads⟩

end TableQuery.Grid
