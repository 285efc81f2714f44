import Mathlib.Data.List.Basic
import TableQuery.Proofs.Row.Columns
import TableQuery.Proofs.Storage.Export
import TableQuery.Proofs.Tabular.Uniform

/-!
# Projection and page are views of the full result

A projection and a page change neither whether a query is refused nor which rows it finds. They
select columns of each row and a stretch of the rows, so the pages of one size, one after the
other, are all rows.
-/

namespace TableQuery

theorem slice_none_none {α : Type} (xs : List α) : slice none none xs = xs := by
  rw [slice]
  exact List.take_length

theorem clampIndex_ofNat (length n : Nat) : clampIndex length (Int.ofNat n) = min n length := by
  have hn : ¬Int.ofNat n < 0 := Int.not_lt.2 (Int.natCast_nonneg n)
  rw [clampIndex, if_neg hn]
  rfl

theorem slice_from {α : Type} (n : Nat) (xs : List α) :
    slice (some (Int.ofNat n)) none xs = xs.drop n := by
  simp only [slice, Option.map_some, Option.getD_some, Option.map_none, Option.getD_none,
    clampIndex_ofNat, List.take_length]
  rcases Nat.le_total n xs.length with h | h
  · rw [Nat.min_eq_left h]
  · rw [Nat.min_eq_right h, List.drop_length, List.drop_eq_nil_of_le h]

theorem slice_upTo {α : Type} (n : Nat) (xs : List α) :
    slice none (some (Int.ofNat n)) xs = xs.take n := by
  simp only [slice, Option.map_some, Option.getD_some, Option.map_none, Option.getD_none,
    clampIndex_ofNat, List.drop_zero]
  rw [← List.take_eq_take_min]

/-- A page skips as many rows as the offset says and keeps as many as the limit says. -/
theorem Rows.page_eq (rows : List Row) (offset limit : Option Nat) :
    Rows.page rows (offset.map Int.ofNat) (limit.map Int.ofNat) =
      (rows.drop (offset.getD 0)).take (limit.getD rows.length) := by
  have hskip : slice (offset.map Int.ofNat) none rows = rows.drop (offset.getD 0) := by
    cases offset with
    | none => exact slice_none_none rows
    | some n => exact slice_from n rows
  rw [Rows.page, hskip]
  cases limit with
  | none =>
      have hlength : (rows.drop (offset.getD 0)).length ≤ rows.length :=
        (List.drop_sublist _ _).length_le
      rw [Option.getD_none, List.take_of_length_le hlength]
      exact slice_none_none _
  | some n => exact slice_upTo n _

/-- Stretches of one length, one after the other, are the list as far as they reach. -/
theorem flatMap_stretches {α : Type} (xs : List α) (size n : Nat) :
    (List.range n).flatMap (fun k => (xs.drop (k * size)).take size) = xs.take (n * size) := by
  induction n with
  | zero => simp
  | succ n ih =>
      rw [List.range_succ, List.flatMap_append, ih, List.flatMap_singleton, Nat.succ_mul,
        List.take_add]

/-- A row has those columns of another that are listed, in the order of the other and with its
values; without a list it has all of them. -/
structure Row.Restricts (names : List String) (row part : Row) : Prop where
  columns_eq : part.columns =
    if names.isEmpty then row.columns else row.columns.filter names.contains
  get?_eq : ∀ name ∈ part.columns, part.get? name = row.get? name

theorem Row.restricts_self (row : Row) : Row.Restricts [] row row :=
  ⟨rfl, fun _ _ => rfl⟩

theorem Row.restricts_project {names : List String} (h : names.isEmpty = false) (row : Row) :
    Row.Restricts names row (row.project names) := by
  constructor
  case columns_eq => rw [columns_project, h, if_neg (by decide)]
  case get?_eq =>
    intro name hname
    obtain ⟨cell, hcell, rfl⟩ := List.mem_map.1 hname
    have hrow : cell ∈ row.cells := List.mem_of_mem_filter hcell
    rw [get?_of_mem hcell, get?_of_mem hrow]

theorem Rows.forall₂_project (names : List String) (rows : List Row) :
    List.Forall₂ (Row.Restricts names) rows (Rows.project rows names) := by
  rw [Rows.project]
  cases h : names.isEmpty with
  | true =>
      obtain rfl : names = [] := List.isEmpty_iff.1 h
      exact List.forall₂_same.2 fun row _ => row.restricts_self
  | false =>
      rw [if_neg (by decide), List.forall₂_map_right_iff, List.forall₂_same]
      exact fun row _ => row.restricts_project h

namespace Request

/-- The request with another projection and another page. -/
def withView (r : Request) (columns : Option (List String)) (limit offset : Option Nat) : Request :=
  { r with columns, limit, offset }

/-- The request for all columns of all rows. -/
def full (r : Request) : Request :=
  r.withView none none none

/-- The request for all rows. -/
def unpaged (r : Request) : Request :=
  r.withView r.columns none none

/-- The request for one of the pages of a size, the first of which has the number zero. -/
def nthPage (r : Request) (size k : Nat) : Request :=
  r.withView r.columns (some size) (some (k * size))

end Request

namespace Tabular

/-- The view of a request shows a stretch of the rows, restricted to the listed columns. -/
theorem forall₂_view (r : Request) (rows : List Row) :
    List.Forall₂ (Row.Restricts r.projection)
      ((rows.drop (r.offset.getD 0)).take (r.limit.getD rows.length)) (view r rows) := by
  have hproject := Rows.forall₂_project r.projection rows
  rw [view, Rows.page_eq, ← hproject.length_eq]
  exact List.forall₂_take _ (List.forall₂_drop _ hproject)

theorem view_nthPage (r : Request) (size k : Nat) (rows : List Row) :
    view (r.nthPage size k) rows = ((view r.unpaged rows).drop (k * size)).take size := by
  have hpage := Rows.page_eq (Rows.project rows r.projection)
  have hunpaged : view r.unpaged rows = Rows.project rows r.projection := by
    refine (hpage none none).trans ?_
    exact List.take_length
  rw [hunpaged]
  exact hpage (some (k * size)) (some size)

theorem view_full (r : Request) (rows : List Row) : view r.full rows = rows :=
  (Rows.page_eq rows none none).trans List.take_length

end Tabular

namespace WorkbookFile

/-- The answer of a request is a view of the answer that shows all columns of all rows, and the
pages of one size are a partition of all rows. -/
structure Viewed (files : Files) (path : Option String) (r : Request) : Prop where
  refused_iff : ∀ e, query none files path r = .error e ↔ query none files path r.full = .error e
  answered : ∀ full rest, query none files path r.full = .ok (full, rest) →
    rest = files ∧ full.warnings = [] ∧ ∃ rows, query none files path r = .ok (⟨rows, []⟩, files) ∧
      List.Forall₂ (Row.Restricts r.projection)
        ((full.rows.drop (r.offset.getD 0)).take (r.limit.getD full.rows.length)) rows
  pages : ∀ all rest, query none files path r.unpaged = .ok (all, rest) → ∀ size,
    ∃ page : Nat → List Row,
      (∀ k, query none files path (r.nthPage size k) = .ok (⟨page k, []⟩, files)) ∧
      ∀ n, all.rows.length ≤ n * size → (List.range n).flatMap page = all.rows

section Found

variable {files : Files} {path : Option String} {w : Workbook} {r : Request}
  (hopen : openFile files path = .ok w)
include hopen

/-- Neither the projection nor the page is looked at before all rows are found. -/
theorem query_withView_of_refused {e : Failure} (h : Tabular.fullRows none w.book r = .error e)
    (columns : Option (List String)) (limit offset : Option Nat) :
    query none files path (r.withView columns limit offset) = .error e :=
  query_of_refused hopen (map_eq_error_iff.2 h)

theorem query_withView_of_fullRows (hexport : Export.sheetName? r.exportSheet = none)
    {rows : List Row} (h : Tabular.fullRows none w.book r = .ok rows)
    (columns : Option (List String)) (limit offset : Option Nat) :
    query none files path (r.withView columns limit offset) =
      .ok (⟨Tabular.view (r.withView columns limit offset) rows, []⟩, files) := by
  have hfound : Tabular.rows none w.book (r.withView columns limit offset) =
      .ok (Tabular.view (r.withView columns limit offset) rows) :=
    map_eq_ok_iff.2 ⟨rows, h, rfl⟩
  have hplain : Tabular.exportRows w (r.withView columns limit offset)
      (Tabular.view (r.withView columns limit offset) rows) = {} := by
    simp only [Tabular.exportRows, Request.withView, hexport]
  rw [query_of_rows hopen hfound, hplain]
  rfl

end Found

theorem Viewed.of_refused {files : Files} {path : Option String} {r : Request} {e : Failure}
    (h : ∀ columns limit offset,
      query none files path (r.withView columns limit offset) = .error e) :
    Viewed files path r := by
  have hself : query none files path r = .error e := h r.columns r.limit r.offset
  have hfull : query none files path r.full = .error e := h none none none
  constructor
  case refused_iff =>
    intro e'
    rw [hself, hfull]
  case answered =>
    intro full rest hanswer
    cases hfull.symm.trans hanswer
  case pages =>
    intro all rest hanswer
    cases (h r.columns none none).symm.trans hanswer

/-- Without an export, the projection and the page of a request only choose what is shown of the
rows that it finds. -/
theorem query_viewed (files : Files) (path : Option String) (r : Request)
    (hexport : Export.sheetName? r.exportSheet = none) : Viewed files path r := by
  cases hopen : openFile files path with
  | error e =>
      refine .of_refused (e := e) fun columns limit offset => ?_
      rw [query, hopen]
  | ok w =>
      cases hfound : Tabular.fullRows none w.book r with
      | error e => exact .of_refused (query_withView_of_refused hopen hfound)
      | ok rows =>
          have hquery := query_withView_of_fullRows hopen hexport hfound
          have hself : query none files path r = .ok (⟨Tabular.view r rows, []⟩, files) :=
            hquery r.columns r.limit r.offset
          have hfull : query none files path r.full = .ok (⟨Tabular.view r.full rows, []⟩, files) :=
            hquery none none none
          rw [Tabular.view_full] at hfull
          constructor
          case refused_iff =>
            intro e
            simp only [hself, hfull, reduceCtorEq]
          case answered =>
            intro full rest hanswer
            cases hfull.symm.trans hanswer
            exact ⟨rfl, rfl, _, hself, Tabular.forall₂_view r rows⟩
          case pages =>
            intro all rest hanswer size
            cases (hquery r.columns none none).symm.trans hanswer
            refine ⟨fun k => Tabular.view (r.nthPage size k) rows,
              fun k => hquery r.columns (some size) (some (k * size)), fun n hn => ?_⟩
            simp only [Tabular.view_nthPage]
            rw [flatMap_stretches]
            exact List.take_of_length_le hn

/-- A request for the second and the third row of a result, ordered by a column that it hides. -/
def shopPage : Request :=
  { Tabular.shopRequest with limit := some 2, offset := some 1, exportSheet := some " " }

theorem query_shop_viewed :
    Export.sheetName? shopPage.exportSheet = none ∧
      Viewed (save {} (some "book.xlsx") Tabular.shop) (some "book.xlsx") shopPage ∧
      ∃ rows, query none (save {} (some "book.xlsx") Tabular.shop) (some "book.xlsx") shopPage =
          .ok (⟨rows, []⟩, save {} (some "book.xlsx") Tabular.shop) ∧
        rows.map Row.columns = [["id", "note"], ["id", "note"]] :=
  ⟨rfl, query_viewed _ _ _ rfl, _, rfl, rfl⟩

end WorkbookFile

end TableQuery
