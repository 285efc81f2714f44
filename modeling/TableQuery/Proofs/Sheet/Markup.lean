import TableQuery.Proofs.Sheet.Writing
import TableQuery.Proofs.Text.Digits

/-!
# Workbooks that a file can hold

A workbook file is a markup document, so it can be read only when the titles and texts of its sheets
consist of markup characters. A workbook stays so when a sheet of such texts is written to it under
such a name.
-/

namespace TableQuery

open TableQuery.Text

/-- A table whose texts are of markup characters, as far as cells hold them. -/
def TextTable.OfMarkup (t : TextTable) : Prop :=
  ∀ texts ∈ t.header :: t.rows, ∀ s ∈ texts, Text.OfMarkup (s.toList.take Cell.maxLength)

instance (t : TextTable) : Decidable t.OfMarkup :=
  inferInstanceAs (Decidable (∀ texts ∈ t.header :: t.rows, ∀ s ∈ texts,
    Text.OfMarkup (s.toList.take Cell.maxLength)))

/-- The text of a cell, empty when it holds none. -/
def Cell.textOf : Option Cell → String
  | some ⟨.text t, _⟩ => t
  | _ => ""

/-- A sheet whose title and texts are of markup characters. -/
structure Sheet.OfMarkup (s : Sheet) : Prop where
  title : Text.OfMarkup s.title.toList
  texts : ∀ row ∈ s.rows, ∀ cell ∈ row, Text.OfMarkup (Cell.textOf cell).toList

/-- A workbook that a file can hold. -/
def Workbook.OfMarkup (w : Workbook) : Prop :=
  ∀ s ∈ w.sheets, s.OfMarkup

/-- The texts that a file keeps are of markup characters. -/
theorem TextTable.ofMarkup_of_isStored {t : TextTable}
    (h : ∀ texts ∈ t.header :: t.rows, ∀ s ∈ texts, Cell.IsStored s) : t.OfMarkup := by
  intro texts htexts s hs c hc
  rcases h texts htexts s hs with rfl | ⟨-, -, hmarkup, -⟩
  · cases hc
  · exact hmarkup c (List.mem_of_mem_take hc)

theorem Text.isMarkup_of_isAsciiDigit : ∀ c, isAsciiDigit c = true → isMarkup c = true :=
  forall_of_isAsciiDigit (by decide)

theorem Cell.FeedsLines.ofMarkup {s t : List Char} (h : FeedsLines s t) (hs : OfMarkup s) :
    OfMarkup t := by
  have hfeed : isMarkup '\n' = true := by decide
  induction h with
  | nil => exact hs
  | pair _ ih =>
      rw [OfMarkup, List.forall_mem_cons, List.forall_mem_cons] at hs
      exact List.forall_mem_cons.2 ⟨hfeed, ih hs.2.2⟩
  | single _ _ ih =>
      rw [OfMarkup, List.forall_mem_cons] at hs
      exact List.forall_mem_cons.2 ⟨hfeed, ih hs.2⟩
  | other _ _ ih =>
      rw [OfMarkup, List.forall_mem_cons] at hs
      exact List.forall_mem_cons.2 ⟨hs.1, ih hs.2⟩

theorem Cell.Holds.ofMarkup {bold : Bool} {s : String} {cell : Option Cell}
    (h : Holds bold s cell) (hs : OfMarkup (s.toList.take maxLength)) :
    OfMarkup (textOf cell).toList := by
  cases h with
  | blank => exact fun c hc => absurd hc List.not_mem_nil
  | text _ hfeeds => exact hfeeds.ofMarkup hs

theorem Cell.textOf_keepCell (cell : Option Cell) : textOf (Sheet.keepCell cell) = textOf cell := by
  rcases cell with _ | ⟨value, bold⟩
  · rfl
  · cases bold <;> cases value <;> rfl

/-- A title with a number behind it. -/
theorem Title.ofMarkup_unused {titles : List String} {title : String}
    (h : OfMarkup title.toList) : OfMarkup (unused titles title).toList := by
  rw [unused]
  split_ifs
  · rw [OfMarkup, String.toList_append, List.forall_mem_append, Nat.toList_repr]
    exact ⟨h, fun c hc => isMarkup_of_isAsciiDigit c (isAsciiDigit_of_mem_toDigits hc)⟩
  · exact h

theorem Title.ofMarkup_of_choose {titles : List String} {name title : String}
    (h : choose titles name = .ok title) (hname : OfMarkup name.toList) :
    OfMarkup title.toList := by
  rw [choose] at h
  split at h
  · cases h
  · cases h
    apply ofMarkup_unused
    split_ifs
    · decide
    · exact hname

theorem Sheet.OfMarkup.kept {s : Sheet} (h : s.OfMarkup) : s.kept.OfMarkup where
  title := h.title
  texts := by
    intro cells hcells kept hkept
    obtain ⟨row, hrow, rfl⟩ := List.mem_map.1 hcells
    obtain ⟨cell, hcell, rfl⟩ := List.mem_map.1 hkept
    rw [Cell.textOf_keepCell]
    exact h.texts row hrow cell hcell

theorem Sheet.ofMarkup_of_write {title : String} {names : List String} {t : TextTable} {s : Sheet}
    (h : write title names t = .ok s) (htitle : Text.OfMarkup title.toList) (ht : t.OfMarkup) :
    s.OfMarkup := by
  obtain ⟨rfl, header, body, hrows, hheader, hbody⟩ := exists_of_write h
  have hrow : ∀ bold texts cells, RowHolds bold texts cells →
      (∀ s ∈ texts, Text.OfMarkup (s.toList.take Cell.maxLength)) →
      ∀ cell ∈ cells, Text.OfMarkup (Cell.textOf cell).toList := by
    intro bold texts cells hholds htexts cell hmem
    obtain ⟨s, hs, hheld⟩ := exists_of_mem_forall₂ hholds hmem
    exact hheld.ofMarkup (htexts s hs)
  rw [TextTable.OfMarkup, List.forall_mem_cons] at ht
  refine ⟨htitle, ?_⟩
  rw [hrows, List.forall_mem_cons]
  refine ⟨hrow true _ _ hheader ht.1, fun cells hcells => ?_⟩
  obtain ⟨texts, htexts, hholds⟩ := exists_of_mem_forall₂ hbody hcells
  exact hrow false _ _ hholds (ht.2 texts htexts)

/-- Replacing a sheet keeps a workbook one that a file can hold. -/
theorem Workbook.OfMarkup.replaceSheet {w w' : Workbook} {name : String} {t : TextTable}
    (h : w.OfMarkup) (hname : Text.OfMarkup name.toList) (ht : t.OfMarkup)
    (hreplace : w.replaceSheet name t = .ok w') : w'.OfMarkup := by
  obtain ⟨title, s, htitle, hwrite, hsheets⟩ := exists_of_replaceSheet hreplace
  obtain ⟨front, removed, back, hall, hdrop, -, -⟩ := exists_dropMatching_eq name w.sheets
  rw [OfMarkup, hsheets, hdrop, List.forall_mem_append, List.forall_mem_singleton]
  refine ⟨?_, Sheet.ofMarkup_of_write hwrite (Title.ofMarkup_of_choose htitle hname) ht⟩
  intro kept hkept
  obtain ⟨other, hother, rfl⟩ := List.mem_map.1 hkept
  refine (h other ?_).kept
  rw [hall, List.append_assoc]
  rcases List.mem_append.1 hother with hother | hother
  · exact List.mem_append_left _ hother
  · exact List.mem_append_right _ (List.mem_append_right _ hother)

end TableQuery
