import Mathlib.Data.List.Forall2
import TableQuery.Proofs.Sheet.CellText
import TableQuery.Proofs.Sheet.Texts

/-!
# What is read of a grid

A grid is read as its used range and as nothing else: the rows with a cell that is not blank, from
the leftmost column with such a cell to the last such cell of the first of these rows. So the first
column that is read is not empty, and no cell in the width of the header is lost.
-/

namespace TableQuery.Grid

open TableQuery.Text

/-- A cell that is not blank stands in a column of a row. -/
def IsFilledAt (row : List Datum) (column : Nat) : Prop :=
  ∃ cell ∈ row[column]?, cell.isBlank = false

/-- The text of a row in a column, empty where the row is too short. -/
def textAt (row : List Datum) (column : Nat) : String :=
  (row[column]?.map Datum.cellText).getD ""

/-- The leftmost column of a grid with a cell that is not blank. -/
structure IsLeftmost (g : Grid) (column : Nat) : Prop where
  filled : ∃ row ∈ g, IsFilledAt row column
  le : ∀ row ∈ g, ∀ c, IsFilledAt row c → column ≤ c

/-- The last column of a row with a cell that is not blank. -/
structure IsLast (row : List Datum) (column : Nat) : Prop where
  filled : IsFilledAt row column
  le : ∀ c, IsFilledAt row c → c ≤ column

/-- The texts of a row in as many columns as the width says. -/
structure Shows (start width : Nat) (row : List Datum) (texts : List String) : Prop where
  length : texts.length = width
  text : ∀ j < width, texts[j]? = some (textAt row (start + j))

/-- The table holds what is used of a grid: nothing when all cells are blank, else the columns from
the leftmost used one to the last used one of the first used row, for every used row in order. -/
inductive IsUsedRange (g : Grid) : TextTable → Prop
  | blank (h : ∀ row ∈ g, ∀ cell ∈ row, cell.isBlank = true) : IsUsedRange g ⟨[], []⟩
  | used {start last : Nat} {first : List Datum} {rest : Grid} {header : List String}
      {rows : List (List String)}
      (hused : g.filter (fun row => row.any fun cell => !cell.isBlank) = first :: rest)
      (hstart : IsLeftmost g start) (hlast : IsLast first last)
      (hheader : Shows start (last + 1 - start) first header)
      (hrows : List.Forall₂ (Shows start (last + 1 - start)) rest rows) :
      IsUsedRange g ⟨header, rows⟩

theorem exists_right_of_forall₂ {α β : Type} {R : α → β → Prop} {xs : List α} {ys : List β}
    (h : List.Forall₂ R xs ys) {x : α} (hx : x ∈ xs) : ∃ y ∈ ys, R x y := by
  obtain ⟨i, hi, rfl⟩ := List.mem_iff_getElem.1 hx
  exact ⟨_, List.getElem_mem _, h.get hi (h.length_eq ▸ hi)⟩

section Rows

variable {row : List Datum} {column : Nat} {g : Grid}

theorem isUsedRow_iff : isUsedRow row = true ↔ ∃ column, IsFilledAt row column := by
  rw [isUsedRow, List.any_eq_true]
  constructor
  · rintro ⟨cell, hmem, hcell⟩
    obtain ⟨column, hcolumn⟩ := List.mem_iff_getElem?.1 hmem
    exact ⟨column, cell, hcolumn, by simpa using hcell⟩
  · rintro ⟨column, cell, hcolumn, hcell⟩
    exact ⟨cell, List.mem_of_getElem? hcolumn, by simp [hcell]⟩

theorem usedRows_eq_nil_iff :
    usedRows g = [] ↔ ∀ row ∈ g, ∀ cell ∈ row, cell.isBlank = true := by
  rw [usedRows, List.filter_eq_nil_iff]
  refine forall₂_congr fun row _ => ?_
  rw [Bool.not_eq_true, isUsedRow, List.any_eq_false]
  refine forall₂_congr fun cell _ => ?_
  rw [Bool.not_eq_true, Bool.not_eq_false']

theorem mem_usedRows_of_isFilledAt (hrow : row ∈ g) (h : IsFilledAt row column) :
    row ∈ usedRows g :=
  List.mem_filter.2 ⟨hrow, isUsedRow_iff.2 ⟨column, h⟩⟩

theorem firstUsed_le (h : IsFilledAt row column) : firstUsed row ≤ column := by
  obtain ⟨cell, hcell, hfilled⟩ := h
  obtain ⟨hlt, rfl⟩ := List.getElem?_eq_some_iff.1 hcell
  rw [firstUsed]
  by_contra hgt
  have hblank := List.not_of_lt_findIdx (Nat.lt_of_not_le hgt)
  rw [hfilled] at hblank
  cases hblank

theorem isFilledAt_firstUsed (h : isUsedRow row = true) : IsFilledAt row (firstUsed row) := by
  have hlt : firstUsed row < row.length := by
    rw [isUsedRow, List.any_eq_true] at h
    exact List.findIdx_lt_length_of_exists h
  have hcell := List.findIdx_getElem (w := hlt)
  rw [Bool.not_eq_true'] at hcell
  exact ⟨_, List.getElem?_eq_getElem hlt, hcell⟩

theorem exists_eq_dropBlankEnd_append (row : List Datum) :
    ∃ back, row = dropBlankEnd row ++ back ∧ ∀ cell ∈ back, cell.isBlank = true := by
  refine ⟨(row.reverse.takeWhile Datum.isBlank).reverse, ?_, fun cell hcell => ?_⟩
  · rw [dropBlankEnd, ← List.reverse_append, List.takeWhile_append_dropWhile, List.reverse_reverse]
  · exact List.all_eq_true.1 List.all_takeWhile cell (List.mem_reverse.1 hcell)

theorem isBlank_getLast_dropBlankEnd {cell : Datum} (h : cell ∈ (dropBlankEnd row).getLast?) :
    cell.isBlank = false := by
  rw [dropBlankEnd, List.getLast?_reverse] at h
  have hhead := List.head?_dropWhile_not Datum.isBlank row.reverse
  rw [Option.mem_def.1 h] at hhead
  simpa using hhead

theorem getElem?_dropBlankEnd (h : column < (dropBlankEnd row).length) :
    (dropBlankEnd row)[column]? = row[column]? := by
  obtain ⟨back, hrow, -⟩ := exists_eq_dropBlankEnd_append row
  conv => rhs; rw [hrow]
  rw [List.getElem?_append_left h]

theorem lt_length_dropBlankEnd (h : IsFilledAt row column) :
    column < (dropBlankEnd row).length := by
  obtain ⟨cell, hcell, hfilled⟩ := h
  obtain ⟨back, hrow, hback⟩ := exists_eq_dropBlankEnd_append row
  by_contra hle
  rw [hrow, List.getElem?_append_right (Nat.le_of_not_lt hle)] at hcell
  rw [hback cell (List.mem_of_getElem? hcell)] at hfilled
  cases hfilled

theorem isFilledAt_length_dropBlankEnd (h : 0 < (dropBlankEnd row).length) :
    IsFilledAt row ((dropBlankEnd row).length - 1) := by
  have hlast := List.getLast?_eq_some_getLast (List.length_pos_iff.1 h)
  refine ⟨_, ?_, isBlank_getLast_dropBlankEnd hlast⟩
  rw [List.getLast?_eq_getElem?, getElem?_dropBlankEnd (Nat.sub_one_lt h.ne')] at hlast
  exact hlast

theorem isFilledAt_drop {start : Nat} :
    IsFilledAt (row.drop start) column ↔ IsFilledAt row (start + column) := by
  rw [IsFilledAt, IsFilledAt, List.getElem?_drop]

end Rows

section Ranges

variable {row first : List Datum} {rest g : Grid} {start last width : Nat} {texts : List String}

theorem leftmost_le (h : row ∈ first :: rest) : leftmost first rest ≤ firstUsed row := by
  induction rest generalizing first with
  | nil => rw [List.mem_singleton.1 h, leftmost]
  | cons next rest ih =>
      rw [leftmost]
      rcases List.mem_cons.1 h with rfl | h
      · exact Nat.min_le_left _ _
      · exact (Nat.min_le_right _ _).trans (ih h)

theorem exists_firstUsed_eq_leftmost (first : List Datum) (rest : Grid) :
    ∃ row ∈ first :: rest, firstUsed row = leftmost first rest := by
  induction rest generalizing first with
  | nil => exact ⟨first, List.mem_cons_self, rfl⟩
  | cons next rest ih =>
      obtain ⟨row, hrow, heq⟩ := ih next
      rw [leftmost]
      rcases Nat.le_total (firstUsed first) (leftmost next rest) with hle | hle
      · exact ⟨first, List.mem_cons_self, (Nat.min_eq_left hle).symm⟩
      · exact ⟨row, List.mem_cons_of_mem _ hrow, heq.trans (Nat.min_eq_right hle).symm⟩

theorem isLeftmost_leftmost (h : usedRows g = first :: rest) :
    IsLeftmost g (leftmost first rest) := by
  constructor
  · obtain ⟨row, hrow, heq⟩ := exists_firstUsed_eq_leftmost first rest
    rw [← h, usedRows, List.mem_filter] at hrow
    exact ⟨row, hrow.1, heq ▸ isFilledAt_firstUsed hrow.2⟩
  · intro row hrow c hc
    have hused : row ∈ first :: rest := h ▸ mem_usedRows_of_isFilledAt hrow hc
    exact (leftmost_le hused).trans (firstUsed_le hc)

theorem shows_window (start width : Nat) (row : List Datum) :
    Shows start width row (window start width row) := by
  refine ⟨length_window start width row, fun j hj => ?_⟩
  rw [window]
  by_cases hlt : start + j < row.length
  · have htaken : ((row.drop start).take width)[j]? = row[start + j]? := by
      rw [List.getElem?_take_of_lt hj, List.getElem?_drop]
    rw [List.getElem?_append_left, List.getElem?_map, htaken, textAt,
      List.getElem?_eq_getElem hlt]
    · rfl
    · simp only [List.length_map, List.length_take, List.length_drop]
      omega
  · rw [List.getElem?_append_right, textAt, List.getElem?_eq_none (Nat.le_of_not_lt hlt),
      List.getElem?_replicate, if_pos]
    · rfl
    all_goals
      simp only [List.length_map, List.length_take, List.length_drop]
      omega

theorem shows_header (start : Nat) (row : List Datum) :
    Shows start (dropBlankEnd (row.drop start)).length row
      ((dropBlankEnd (row.drop start)).map Datum.cellText) := by
  refine ⟨List.length_map _, fun j hj => ?_⟩
  have hcell : (dropBlankEnd (row.drop start))[j]? = row[start + j]? := by
    rw [getElem?_dropBlankEnd hj, List.getElem?_drop]
  rw [List.getElem?_eq_getElem hj] at hcell
  rw [List.getElem?_map, List.getElem?_eq_getElem hj, textAt, ← hcell]
  rfl

/-- The header ends with the last cell of its row that is not blank. -/
theorem isLast_header {column : Nat} (h : IsFilledAt row column) (hstart : start ≤ column) :
    ∃ last, IsLast row last ∧ (dropBlankEnd (row.drop start)).length = last + 1 - start := by
  have hlt : ∀ c, IsFilledAt row c → start ≤ c →
      c < start + (dropBlankEnd (row.drop start)).length := by
    intro c hc hle
    have hdrop : IsFilledAt (row.drop start) (c - start) := by
      rwa [isFilledAt_drop, Nat.add_sub_cancel' hle]
    have hlength := lt_length_dropBlankEnd hdrop
    omega
  have hcolumn := hlt column h hstart
  have hend : IsFilledAt (row.drop start) ((dropBlankEnd (row.drop start)).length - 1) :=
    isFilledAt_length_dropBlankEnd (by omega)
  have hlast := isFilledAt_drop.1 hend
  refine ⟨_, ⟨hlast, fun c hc => ?_⟩, by omega⟩
  rcases Nat.lt_or_ge c start with hlow | hhigh
  · omega
  · have hbelow := hlt c hc hhigh
    omega

/-- What is read of a grid is its used range. -/
theorem isUsedRange_contents (g : Grid) : IsUsedRange g g.contents := by
  rw [contents]
  cases hused : usedRows g with
  | nil => exact .blank (usedRows_eq_nil_iff.1 hused)
  | cons first rest =>
      have hstart := isLeftmost_leftmost hused
      have hfirst : first ∈ usedRows g := hused ▸ List.mem_cons_self
      rw [usedRows, List.mem_filter] at hfirst
      obtain ⟨column, hcolumn⟩ := isUsedRow_iff.1 hfirst.2
      have hle := hstart.le first hfirst.1 column hcolumn
      obtain ⟨last, hlast, hwidth⟩ := isLast_header hcolumn hle
      have hheader := shows_header (leftmost first rest) first
      dsimp only
      rw [List.length_map, hwidth]
      rw [hwidth] at hheader
      refine .used hused hstart hlast hheader ?_
      rw [List.forall₂_map_right_iff]
      exact List.forall₂_same.2 fun row _ => shows_window _ _ row

end Ranges

section Uniqueness

variable {g : Grid} {row : List Datum} {t t' : TextTable} {texts texts' : List String}
  {start start' last last' width : Nat}

theorem IsLeftmost.not_blank (h : IsLeftmost g start) :
    ¬∀ row ∈ g, ∀ cell ∈ row, cell.isBlank = true := by
  intro hblank
  obtain ⟨row, hrow, cell, hcell, hfilled⟩ := h.filled
  rw [hblank row hrow cell (List.mem_of_getElem? hcell)] at hfilled
  cases hfilled

theorem IsLeftmost.unique (h : IsLeftmost g start) (h' : IsLeftmost g start') : start = start' := by
  obtain ⟨row, hrow, hfilled⟩ := h.filled
  obtain ⟨row', hrow', hfilled'⟩ := h'.filled
  exact Nat.le_antisymm (h.le row' hrow' start' hfilled') (h'.le row hrow start hfilled)

theorem IsLast.unique (h : IsLast row last) (h' : IsLast row last') : last = last' :=
  Nat.le_antisymm (h'.le last h.filled) (h.le last' h'.filled)

theorem Shows.unique (h : Shows start width row texts) (h' : Shows start width row texts') :
    texts = texts' := by
  apply List.ext_getElem?
  intro j
  rcases Nat.lt_or_ge j width with hj | hj
  · rw [h.text j hj, h'.text j hj]
  · rw [List.getElem?_eq_none (h.length.trans_le hj), List.getElem?_eq_none (h'.length.trans_le hj)]

/-- A grid has one used range. -/
theorem IsUsedRange.unique (h : IsUsedRange g t) (h' : IsUsedRange g t') : t = t' := by
  cases h with
  | blank h =>
      cases h' with
      | blank => rfl
      | used _ hstart => exact absurd h hstart.not_blank
  | @used start last _ _ _ _ hused hstart hlast hheader hrows =>
      cases h' with
      | blank h => exact absurd h hstart.not_blank
      | used hused' hstart' hlast' hheader' hrows' =>
          obtain ⟨rfl, rfl⟩ := List.cons.inj (hused.symm.trans hused')
          obtain rfl := hstart.unique hstart'
          obtain rfl := hlast.unique hlast'
          obtain rfl := hheader.unique hheader'
          have hunique : Relator.RightUnique (Shows start (last + 1 - start)) :=
            fun _ _ _ h h' => h.unique h'
          rw [List.right_unique_forall₂' hunique hrows hrows']

end Uniqueness

section Coverage

variable {g : Grid} {t : TextTable} {row : List Datum} {start : Nat}

theorem isBlankText_textAt {column : Nat} (h : IsFilledAt row column) :
    isBlankText (textAt row column) = false := by
  obtain ⟨cell, hcell, hfilled⟩ := h
  rw [textAt, Option.mem_def.1 hcell, Option.map_some, Option.getD_some,
    Datum.isBlankText_cellText, hfilled]

/-- The header ends with a cell that is not blank, and every used row is shown in its width. -/
theorem IsUsedRange.exists_shows (h : IsUsedRange g t) (hstart : IsLeftmost g start) :
    (∃ first last, IsFilledAt first (start + last) ∧ t.header.length = last + 1 ∧
        Shows start t.header.length first t.header) ∧
      ∀ row ∈ g, ∀ column, IsFilledAt row column →
        ∃ texts ∈ t.header :: t.rows, Shows start t.header.length row texts := by
  cases h with
  | blank hblank => exact absurd hblank hstart.not_blank
  | @used start' last first rest header rows hused hstart' hlast hheader hrows =>
      obtain rfl := hstart.unique hstart'
      have hused : usedRows g = first :: rest := hused
      have hfirst : first ∈ usedRows g := hused ▸ List.mem_cons_self
      have hle := hstart.le first (List.mem_filter.1 hfirst).1 last hlast.filled
      have hwidth := hheader.length
      rw [← hwidth] at hheader hrows
      refine ⟨⟨first, last - start, ?_, ?_, hheader⟩, fun row hrow column hcolumn => ?_⟩
      · rw [Nat.add_sub_cancel' hle]
        exact hlast.filled
      · rw [hwidth]
        omega
      · exact exists_right_of_forall₂ (.cons hheader hrows)
          (hused ▸ mem_usedRows_of_isFilledAt hrow hcolumn)

theorem IsUsedRange.spans (h : IsUsedRange g t) (hstart : IsLeftmost g start) : t.Spans := by
  obtain ⟨⟨first, last, hlast, hwidth, hheader⟩, hrows⟩ := h.exists_shows hstart
  obtain ⟨row, hrow, hfilled⟩ := hstart.filled
  obtain ⟨texts, htexts, hshows⟩ := hrows row hrow start hfilled
  constructor
  case first_filled =>
    refine ⟨texts, htexts, _, ?_, isBlankText_textAt hfilled⟩
    rw [List.head?_eq_getElem?, hshows.text 0 (by omega)]
    rfl
  case last_filled =>
    refine ⟨_, ?_, isBlankText_textAt hlast⟩
    rw [List.getLast?_eq_getElem?, hwidth, Nat.add_sub_cancel, hheader.text last (by omega)]
    rfl

end Coverage

/-- A grid is read as its used range, which begins and ends with something that is not blank and
leaves out no cell in the width of its header. -/
theorem contents_usedRange (g : Grid) :
    (∀ t, g.contents = t ↔ IsUsedRange g t) ∧
      ∀ start, IsLeftmost g start → g.contents.Spans ∧
        ∀ row ∈ g, ∀ column < start + g.contents.header.length, IsFilledAt row column →
          ∃ texts ∈ g.contents.header :: g.contents.rows,
            texts[column - start]? = some (textAt row column) := by
  have hrange := isUsedRange_contents g
  refine ⟨fun t => ⟨fun h => h ▸ hrange, fun h => hrange.unique h⟩, fun start hstart => ?_⟩
  refine ⟨hrange.spans hstart, fun row hrow column hlt hfilled => ?_⟩
  obtain ⟨texts, htexts, hshows⟩ := (hrange.exists_shows hstart).2 row hrow column hfilled
  have hle := hstart.le row hrow column hfilled
  refine ⟨texts, htexts, ?_⟩
  rw [hshows.text (column - start) (by omega), Nat.add_sub_cancel' hle]

/-- A range that starts in the second column and whose last row is longer than the header. -/
theorem contents_usedRange_offset :
    let g : Grid := [[.null], [.null, .null, .text "name", .text " "], [],
      [.text "\t", .text "1", .bool true, .text "x"], [.null, .null, .text "Ann"]]
    IsLeftmost g 1 ∧ g.contents = ⟨["", "name"], [["1", "TRUE"], ["", "Ann"]]⟩ ∧
      g.contents.Spans := by
  intro g
  have hstart : IsLeftmost g 1 := isLeftmost_leftmost (g := g) rfl
  exact ⟨hstart, rfl, ((contents_usedRange g).2 1 hstart).1⟩

end TableQuery.Grid
