import Mathlib.Data.List.TakeWhile
import TableQuery.Sheet.UsedRange

/-!
# Sheets of texts

A sheet of texts is read as it was written when the first and the last name of its header are not
blank: its used range starts in the first column, its header ends with the last name, and of the
rows below only those are missing that hold nothing but blank texts.
-/

namespace TableQuery

open TableQuery.Text

/-- A text of the row is not blank. -/
def TextTable.isFilled (row : List String) : Bool :=
  row.any fun s => !isBlankText s

theorem TextTable.isFilled_of_mem {row : List String} {s : String} (hs : s ∈ row)
    (h : isBlankText s = false) : TextTable.isFilled row = true := by
  rw [isFilled, List.any_eq_true]
  exact ⟨s, hs, by rw [h, Bool.not_false]⟩

/-- A sheet of the table is used from its first column on and up to the last name of its header. -/
structure TextTable.Spans (t : TextTable) : Prop where
  first_filled : ∃ texts ∈ t.header :: t.rows, ∃ s ∈ texts.head?, isBlankText s = false
  last_filled : ∃ s ∈ t.header.getLast?, isBlankText s = false

namespace Grid

/-- The cell of each text is read as that text and is blank when the text is. -/
def ShowsTexts (cell : String → Datum) : Prop :=
  ∀ s, (cell s).cellText = s ∧ (cell s).isBlank = isBlankText s

theorem showsTexts_text : ShowsTexts Datum.text := fun _ => ⟨rfl, rfl⟩

theorem leftmost_eq_zero_iff {row : List Datum} {rows : Grid} :
    leftmost row rows = 0 ↔ ∃ r ∈ row :: rows, firstUsed r = 0 := by
  induction rows generalizing row with
  | nil => simp [leftmost]
  | cons next rows ih =>
      rw [leftmost, Nat.min_eq_zero_iff, ih]
      simp only [List.mem_cons, exists_eq_or_imp]

theorem length_dropBlankEnd_le (row : List Datum) : (dropBlankEnd row).length ≤ row.length := by
  have hle : (row.reverse.dropWhile Datum.isBlank).length ≤ row.reverse.length :=
    (List.dropWhile_sublist _).length_le
  rw [List.length_reverse] at hle
  rwa [dropBlankEnd, List.length_reverse]

section ShowsTexts

variable {cell : String → Datum} (hcell : ShowsTexts cell)
include hcell

theorem isUsedRow_map (texts : List String) :
    isUsedRow (texts.map cell) = TextTable.isFilled texts := by
  rw [isUsedRow, List.any_map, TextTable.isFilled]
  congr 1
  funext s
  rw [Function.comp_apply, (hcell s).2]

theorem usedRows_map (rows : List (List String)) :
    usedRows (rows.map (List.map cell)) =
      (rows.filter TextTable.isFilled).map (List.map cell) := by
  rw [usedRows, List.filter_map]
  congr 2
  funext texts
  exact isUsedRow_map hcell texts

theorem firstUsed_map_eq_zero_iff {texts : List String} (hne : texts ≠ []) :
    firstUsed (texts.map cell) = 0 ↔ ∃ s ∈ texts.head?, isBlankText s = false := by
  cases texts with
  | nil => exact absurd rfl hne
  | cons s texts =>
      rw [firstUsed, List.map_cons, List.findIdx_cons, (hcell s).2]
      cases hs : isBlankText s <;> simp [hs]

theorem dropBlankEnd_map {s : String} (h : isBlankText s = false) (texts : List String) :
    dropBlankEnd ((texts ++ [s]).map cell) = (texts ++ [s]).map cell := by
  have hlast : ¬(cell s).isBlank = true := by simp [(hcell s).2, h]
  rw [dropBlankEnd, ← List.map_reverse, List.reverse_concat, List.map_cons,
    List.dropWhile_cons_of_neg hlast, ← List.map_cons, ← List.reverse_concat, List.map_reverse,
    List.reverse_reverse]

theorem map_cellText_map (texts : List String) :
    (texts.map cell).map Datum.cellText = texts := by
  conv => rhs; rw [← List.map_id texts]
  rw [List.map_map]
  exact List.map_congr_left fun s _ => (hcell s).1

theorem exists_last_of_dropBlankEnd {texts : List String} (hne : texts ≠ [])
    (h : (dropBlankEnd (texts.map cell)).length = texts.length) :
    ∃ s ∈ texts.getLast?, isBlankText s = false := by
  obtain ⟨front, last, rfl⟩ : ∃ front last, texts = front ++ [last] :=
    ⟨_, _, (List.dropLast_concat_getLast hne).symm⟩
  refine ⟨last, List.getLast?_concat, ?_⟩
  by_contra hlast
  -- A blank last text is dropped, so what is left is no longer than the rest.
  have hdrop : dropBlankEnd ((front ++ [last]).map cell) = dropBlankEnd (front.map cell) := by
    have hblank : (cell last).isBlank = true := by simpa [(hcell last).2] using hlast
    rw [dropBlankEnd, ← List.map_reverse, List.reverse_concat, List.map_cons,
      List.dropWhile_cons_of_pos hblank, List.map_reverse, ← dropBlankEnd]
  have hle := length_dropBlankEnd_le (front.map cell)
  rw [hdrop, List.length_append, List.length_singleton] at h
  rw [List.length_map] at hle
  omega

theorem window_map {width : Nat} {texts : List String} (h : texts.length = width) :
    window 0 width (texts.map cell) = texts := by
  have htake : ((texts.map cell).drop 0).take width = texts.map cell := by
    rw [List.drop_zero, List.take_of_length_le (by simp [h])]
  rw [window, htake, map_cellText_map hcell, h, Nat.sub_self, List.replicate_zero,
    List.append_nil]

theorem leftmost_map_eq_zero_iff {header : List String} {rows : List (List String)}
    (hfilled : TextTable.isFilled header = true) :
    leftmost (header.map cell) ((rows.filter TextTable.isFilled).map (List.map cell)) = 0 ↔
      ∃ texts ∈ header :: rows, ∃ s ∈ texts.head?, isBlankText s = false := by
  rw [leftmost_eq_zero_iff, ← List.map_cons, ← List.filter_cons_of_pos hfilled]
  constructor
  · rintro ⟨cells, hcells, hzero⟩
    obtain ⟨texts, htexts, rfl⟩ := List.mem_map.1 hcells
    obtain ⟨hmem, hused⟩ := List.mem_filter.1 htexts
    have hne : texts ≠ [] := by
      rintro rfl
      cases hused
    exact ⟨texts, hmem, (firstUsed_map_eq_zero_iff hcell hne).1 hzero⟩
  · rintro ⟨texts, hmem, s, hs, hblank⟩
    have hne : texts ≠ [] := by
      rintro rfl
      cases hs
    have hused := TextTable.isFilled_of_mem (List.mem_of_mem_head? hs) hblank
    refine ⟨texts.map cell, List.mem_map_of_mem (List.mem_filter.2 ⟨hmem, hused⟩), ?_⟩
    exact (firstUsed_map_eq_zero_iff hcell hne).2 ⟨s, hs, hblank⟩

/-- Rows of the width of a header that is spanned are read as they are, without those that are
blank. -/
theorem contents_of_spans {t : TextTable} (h : t.Spans)
    (hlength : ∀ row ∈ t.rows, row.length = t.header.length) :
    contents ((t.header :: t.rows).map (List.map cell)) =
      ⟨t.header, t.rows.filter TextTable.isFilled⟩ := by
  obtain ⟨last, hend, hlast⟩ := h.last_filled
  obtain ⟨front, hfront⟩ := List.getLast?_eq_some_iff.1 hend
  have hfilled := TextTable.isFilled_of_mem (List.mem_of_getLast? hend) hlast
  have hstart := (leftmost_map_eq_zero_iff hcell hfilled).2 h.first_filled
  have hheader : dropBlankEnd (t.header.map cell) = t.header.map cell := by
    rw [hfront]
    exact dropBlankEnd_map hcell hlast front
  have hrows : ((t.rows.filter TextTable.isFilled).map (List.map cell)).map
      (window 0 t.header.length) = t.rows.filter TextTable.isFilled := by
    conv => rhs; rw [← List.map_id (t.rows.filter TextTable.isFilled)]
    rw [List.map_map]
    apply List.map_congr_left
    intro row hrow
    exact window_map hcell (hlength row (List.mem_filter.1 hrow).1)
  rw [contents, usedRows_map hcell, List.filter_cons_of_pos hfilled, List.map_cons]
  dsimp only
  rw [hstart, List.drop_zero, hheader, map_cellText_map hcell, hrows]

/-- Rows of the width of a header are read as they are, without those that are blank. -/
theorem contents_map {header : List String} {rows : List (List String)}
    (hfirst : ∃ column ∈ header.head?, isBlankText column = false)
    (hlast : ∃ column ∈ header.getLast?, isBlankText column = false)
    (hlength : ∀ row ∈ rows, row.length = header.length) :
    contents ((header :: rows).map (List.map cell)) =
      ⟨header, rows.filter TextTable.isFilled⟩ :=
  contents_of_spans (t := ⟨header, rows⟩) hcell ⟨⟨header, List.mem_cons_self, hfirst⟩, hlast⟩
    hlength

/-- Below a blank header a row is taken for the header, so one row less is read. -/
theorem length_contents_lt {t : TextTable} (hrows : t.rows ≠ [])
    (hblank : ¬TextTable.isFilled t.header = true) :
    (contents ((t.header :: t.rows).map (List.map cell))).rows.length < t.rows.length := by
  have hle := List.length_filter_le TextTable.isFilled t.rows
  have hpos : 0 < t.rows.length := List.length_pos_iff.2 hrows
  rw [contents, usedRows_map hcell, List.filter_cons_of_neg hblank]
  cases hused : t.rows.filter TextTable.isFilled with
  | nil => exact hpos
  | cons first rest =>
      rw [hused, List.length_cons] at hle
      simp only [List.map_cons, List.length_map]
      omega

/-- A header that is read as it is stands in a range that it spans, and where as many rows are read
as there are, none of them is blank. -/
theorem spans_of_contents {t : TextTable} (hheader : t.header ≠ []) (hrows : t.rows ≠ [])
    (h : (contents ((t.header :: t.rows).map (List.map cell))).header = t.header)
    (hlength : (contents ((t.header :: t.rows).map (List.map cell))).rows.length =
      t.rows.length) : t.Spans ∧ ∀ row ∈ t.rows, TextTable.isFilled row = true := by
  have hfilled : TextTable.isFilled t.header = true := by
    by_contra hblank
    exact (length_contents_lt hcell hrows hblank).ne hlength
  rw [contents, usedRows_map hcell, List.filter_cons_of_pos hfilled, List.map_cons] at h hlength
  dsimp only at h hlength
  rw [List.length_map, List.length_map, List.length_filter_eq_length_iff] at hlength
  have hwidth := congrArg List.length h
  have hpos : 0 < t.header.length := List.length_pos_iff.2 hheader
  have hstart : leftmost (t.header.map cell)
      ((t.rows.filter TextTable.isFilled).map (List.map cell)) = 0 := by
    have hle := length_dropBlankEnd_le ((t.header.map cell).drop
      (leftmost (t.header.map cell) ((t.rows.filter TextTable.isFilled).map (List.map cell))))
    rw [List.length_map] at hwidth
    rw [List.length_drop, List.length_map] at hle
    omega
  rw [hstart, List.drop_zero, List.length_map] at hwidth
  exact ⟨⟨(leftmost_map_eq_zero_iff hcell hfilled).1 hstart,
    exists_last_of_dropBlankEnd hcell hheader hwidth⟩, hlength⟩

end ShowsTexts

/-- A header without blank names over rows of its width that are not blank is read as it is. -/
theorem contents_texts {header : List String} {rows : List (List String)} (hne : header ≠ [])
    (hheader : ∀ column ∈ header, isBlankText column = false)
    (hlength : ∀ row ∈ rows, row.length = header.length)
    (hused : ∀ row ∈ rows, ∃ s ∈ row, isBlankText s = false) :
    contents ((header :: rows).map (List.map .text)) = ⟨header, rows⟩ := by
  have hfilled : rows.filter TextTable.isFilled = rows := by
    rw [List.filter_eq_self]
    intro row hrow
    simpa [TextTable.isFilled] using hused row hrow
  have hfirst := hheader _ (List.head_mem hne)
  have hlast := hheader _ (List.getLast_mem hne)
  rw [contents_map showsTexts_text ⟨_, List.head?_eq_some_head hne, hfirst⟩
    ⟨_, List.getLast?_eq_some_getLast hne, hlast⟩ hlength, hfilled]

end Grid

end TableQuery
