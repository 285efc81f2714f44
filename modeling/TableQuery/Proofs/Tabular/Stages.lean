import TableQuery.Proofs.Reading
import TableQuery.Tabular

/-!
# The stages of a query over a workbook

A query that is answered has passed every stage: its sheets were loaded and joined, the joined rows
filtered and ordered, and the answer is a view of them. It gives a new workbook only when a sheet of
the rows was written.
-/

namespace TableQuery.Tabular

theorem exists_of_joinSheets_cons {b : Book} {rows joined : List Row} {j : JoinSpec}
    {joins : List JoinSpec} (h : joinSheets b rows (j :: joins) = .ok joined) :
    ∃ right next, b.load j.table = .ok right ∧
      Rows.join rows right j.leftColumn j.rightColumn = .ok next ∧
      joinSheets b next joins = .ok joined := by
  rw [joinSheets] at h
  split at h
  · cases h
  · next right hload =>
      split at h
      · cases h
      · next next hjoin => exact ⟨right, next, hload, hjoin, h⟩

theorem eq_nil_of_joinSheets_nil {b : Book} {joins : List JoinSpec} {joined : List Row}
    (h : joinSheets b [] joins = .ok joined) : joined = [] := by
  induction joins with
  | nil =>
      cases h
      rfl
  | cons j joins ih =>
      obtain ⟨right, next, -, hjoin, hrest⟩ := exists_of_joinSheets_cons h
      rw [Rows.join_nil] at hjoin
      cases hjoin
      exact ih hrest

theorem exists_of_fullRows {deadline : Option Deadline} {b : Book} {r : Request} {rows : List Row}
    (h : fullRows deadline b r = .ok rows) :
    ∃ base joined, b.load r.table = .ok base ∧ joinSheets b base r.joins = .ok joined ∧
      Rows.order (Rows.filter joined r.filter) r.orderBy = .ok rows := by
  rw [fullRows] at h
  split at h
  · cases h
  · next base hload =>
      split at h
      · cases h
      · split at h
        · cases h
        · next joined hjoined =>
            split at h
            · cases h
            · next ordered hordered =>
                cases h
                exact ⟨base, joined, hload, hjoined, hordered⟩

theorem run_eq_ok_iff {deadline : Option Deadline} {w : Workbook} {r : Request} {result : ResultSet}
    {written : Option Workbook} :
    run deadline w r = .ok (result, written) ↔
      rows deadline w.book r = .ok result.rows ∧
        (exportRows w r result.rows).warnings = result.warnings ∧
        (exportRows w r result.rows).workbook = written := by
  rw [run]
  cases rows deadline w.book r with
  | error e => simp
  | ok found =>
      obtain ⟨rows, warnings⟩ := result
      simp only [Except.ok.injEq, Prod.mk.injEq, ResultSet.mk.injEq, and_assoc]
      constructor
      · rintro ⟨rfl, rfl, rfl⟩
        exact ⟨rfl, rfl, rfl⟩
      · rintro ⟨rfl, rfl, rfl⟩
        exact ⟨rfl, rfl, rfl⟩

/-- An export that wrote a workbook has replaced a sheet by the table of the rows. -/
theorem exists_of_exportRows {w w' : Workbook} {r : Request} {rows : List Row}
    (h : (exportRows w r rows).workbook = some w') :
    ∃ name t, Export.table? rows = some t ∧ w.replaceSheet name t = .ok w' := by
  rw [exportRows] at h
  split at h
  · next name t _ ht =>
      rw [Export.write] at h
      cases hreplace : w.replaceSheet name t with
      | error e =>
          rw [hreplace] at h
          cases h
      | ok w'' =>
          rw [hreplace] at h
          cases h
          exact ⟨name, t, ht, hreplace⟩
  · cases h

end TableQuery.Tabular
