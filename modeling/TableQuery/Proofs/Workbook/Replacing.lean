import Mathlib.Data.List.Forall2
import TableQuery.Proofs.Reading
import TableQuery.Workbook

/-!
# What a written sheet leaves alone

Writing a sheet takes away at most one sheet, whose title matches the name of the new one, and
adds the new one at the end. Every other sheet stays where it was among the others, with its
title, its cells, its tables and its widths.
-/

namespace TableQuery

open TableQuery.Text

namespace Sheet

/-- The cells of a sheet by row and column; an empty cell without formatting counts as none. -/
def keptCells (s : Sheet) : List (List (Option Cell)) :=
  s.rows.map fun row => row.map keepCell

/-- Two sheets with the same title, cells, tables and column widths. -/
structure Same (s s' : Sheet) : Prop where
  title_eq : s.title = s'.title
  cells_eq : s.keptCells = s'.keptCells
  tables_eq : s.tables = s'.tables
  widths_eq : s.widths = s'.widths

theorem keepCell_keepCell (cell : Option Cell) : keepCell (keepCell cell) = keepCell cell := by
  rcases cell with _ | ⟨value, bold⟩
  · rfl
  · cases bold with
    | true => cases value <;> rfl
    | false => cases value <;> rfl

theorem keptCells_kept (s : Sheet) : s.kept.keptCells = s.keptCells := by
  simp only [keptCells, kept, List.map_map, Function.comp_def, keepCell_keepCell]

theorem same_kept (s : Sheet) : Same s s.kept where
  title_eq := rfl
  cells_eq := s.keptCells_kept.symm
  tables_eq := rfl
  widths_eq := rfl

instance : Std.Refl Same where
  refl _ := ⟨rfl, rfl, rfl, rfl⟩

instance : IsTrans Sheet Same where
  trans _ _ _ h h' := ⟨h.title_eq.trans h'.title_eq, h.cells_eq.trans h'.cells_eq,
    h.tables_eq.trans h'.tables_eq, h.widths_eq.trans h'.widths_eq⟩

/-- The title of a sheet matches none of a list of names. -/
def isOther (names : List String) (s : Sheet) : Bool :=
  names.all fun name => !sameFold s.title name

/-- Sheets with the same cells are read alike. -/
theorem Same.grid_eq {s s' : Sheet} (h : Same s s') : s.grid = s'.grid := by
  have hshown : ∀ s : Sheet, s.grid = s.keptCells.map fun row => row.map fun cell =>
      (cell.map fun c => Cell.shown c.value).getD .null := by
    intro s
    simp only [grid, keptCells, List.map_map]
    refine List.map_congr_left fun row _ => ?_
    rw [Function.comp_apply, List.map_map]
    refine List.map_congr_left fun cell _ => ?_
    rcases cell with _ | ⟨value, bold⟩
    · rfl
    · cases bold <;> cases value <;> rfl
  rw [hshown, hshown, h.cells_eq]

end Sheet

namespace Workbook

/-- A workbook before and after a sheet of a name was written. -/
inductive Wrote (name : String) : Workbook → Workbook → Prop
  | intro {front back kept : List Sheet} {removed : Option Sheet} {added : Sheet}
      (matching : ∀ s ∈ removed, sameFold s.title name = true)
      (unmatched : ∀ s ∈ front, sameFold s.title name = false)
      (same : List.Forall₂ Sheet.Same (front ++ back) kept) :
      Wrote name ⟨front ++ removed.toList ++ back⟩ ⟨kept ++ [added]⟩

theorem exists_dropMatching_eq (name : String) (sheets : List Sheet) :
    ∃ front removed back, sheets = front ++ Option.toList removed ++ back ∧
      dropMatching name sheets = front ++ back ∧
      (∀ s ∈ removed, sameFold s.title name = true) ∧
      ∀ s ∈ front, sameFold s.title name = false := by
  induction sheets with
  | nil => exact ⟨[], none, [], rfl, rfl, by simp, by simp⟩
  | cons s sheets ih =>
      rw [dropMatching]
      by_cases hs : sameFold s.title name = true
      · exact ⟨[], some s, sheets, rfl, if_pos hs, by simpa using hs, by simp⟩
      · obtain ⟨front, removed, back, hsheets, hdrop, hmatching, hunmatched⟩ := ih
        refine ⟨s :: front, removed, back, by rw [hsheets]; rfl, ?_, hmatching, ?_⟩
        · rw [if_neg hs, hdrop, List.cons_append]
        · rw [List.forall_mem_cons]
          exact ⟨by simpa using hs, hunmatched⟩

theorem wrote_of_replaceSheet {w w' : Workbook} {name : String} {t : TextTable}
    (h : w.replaceSheet name t = .ok w') : Wrote name w w' := by
  obtain ⟨front, removed, back, hsheets, hdrop, hmatching, hunmatched⟩ :=
    exists_dropMatching_eq name w.sheets
  obtain ⟨title, -, h⟩ := bind_eq_ok_iff.1 h
  obtain ⟨added, -, h⟩ := bind_eq_ok_iff.1 h
  have hsame : List.Forall₂ Sheet.Same (front ++ back) ((front ++ back).map Sheet.kept) := by
    rw [List.forall₂_map_right_iff, List.forall₂_same]
    exact fun s _ => s.same_kept
  obtain ⟨sheets⟩ := w
  cases h
  rw [hdrop]
  cases hsheets
  exact .intro hmatching hunmatched hsame

/-- A workbook that still has every sheet whose title matches none of a list of names, in the
order in which they were. -/
def Keeps (names : List String) (w w' : Workbook) : Prop :=
  List.SublistForall₂ Sheet.Same (w.sheets.filter (Sheet.isOther names)) w'.sheets

theorem Keeps.refl (names : List String) (w : Workbook) : Keeps names w w :=
  List.filter_sublist.sublistForall₂

theorem Wrote.keeps {name : String} {w w' : Workbook} (h : Wrote name w w') :
    Keeps [name] w w' := by
  cases h with
  | @intro front back kept removed added hmatching _ hsame =>
      have hremoved : removed.toList.filter (Sheet.isOther [name]) = [] := by
        rw [List.filter_eq_nil_iff]
        intro s hs
        simp [Sheet.isOther, hmatching s (Option.mem_toList.1 hs)]
      have hothers : ((front ++ removed.toList ++ back).filter (Sheet.isOther [name])).Sublist
          (front ++ back) := by
        rw [List.filter_append, List.filter_append, hremoved, List.append_nil,
          ← List.filter_append]
        exact List.filter_sublist
      have hkept : List.SublistForall₂ Sheet.Same (front ++ back) (kept ++ [added]) :=
        List.sublistForall₂_iff.2 ⟨kept, hsame, List.sublist_append_left kept [added]⟩
      rw [Keeps]
      exact IsTrans.trans _ _ _ hothers.sublistForall₂ hkept

theorem sublistForall₂_filter_isOther {names : List String} {xs ys : List Sheet}
    (h : List.SublistForall₂ Sheet.Same xs ys) :
    List.SublistForall₂ Sheet.Same (xs.filter (Sheet.isOther names))
      (ys.filter (Sheet.isOther names)) := by
  induction h with
  | nil => exact .nil
  | @cons x y xs ys hxy _ ih =>
      rw [List.filter_cons, List.filter_cons, Sheet.isOther, Sheet.isOther, hxy.title_eq]
      split_ifs
      · exact .cons hxy ih
      · exact ih
  | @cons_right y xs ys _ ih =>
      rw [List.filter_cons]
      split_ifs
      · exact .cons_right ih
      · exact ih

theorem Keeps.trans {names names' : List String} {w w' w'' : Workbook} (h : Keeps names w w')
    (h' : Keeps names' w' w'') : Keeps (names ++ names') w w'' := by
  have hothers : w.sheets.filter (Sheet.isOther (names ++ names')) =
      (w.sheets.filter (Sheet.isOther names)).filter (Sheet.isOther names') := by
    rw [List.filter_filter]
    congr 1
    funext s
    rw [Sheet.isOther, List.all_append, Bool.and_comm]
    rfl
  rw [Keeps, hothers]
  exact IsTrans.trans _ _ _ (sublistForall₂_filter_isOther h) h'

end Workbook

end TableQuery
