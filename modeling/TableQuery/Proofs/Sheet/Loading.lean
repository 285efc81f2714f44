import TableQuery.Proofs.Rows.Uniform
import TableQuery.Sheet.Book

/-!
# Loaded sheets

The rows of the used range are as wide as its header. A sheet that is loaded has a header without
repetitions, so its rows have the names of the header as their columns.
-/

namespace TableQuery

theorem Grid.length_of_mem_contents {g : Grid} {row : List String} (h : row ∈ g.contents.rows) :
    row.length = g.contents.header.length := by
  rw [contents] at h ⊢
  cases hused : usedRows g with
  | nil =>
      rw [hused] at h
      cases h
  | cons first rest =>
      rw [hused] at h
      dsimp only at h ⊢
      obtain ⟨cells, -, rfl⟩ := List.mem_map.1 h
      exact length_window _ _ cells

theorem nodup_of_firstRepeated? {seen names : List String} (h : firstRepeated? seen names = none) :
    names.Nodup ∧ ∀ name ∈ names, name ∉ seen := by
  induction names generalizing seen with
  | nil => simp
  | cons name names ih =>
      rw [firstRepeated?] at h
      split_ifs at h with hseen
      obtain ⟨hnames, hnew⟩ := ih h
      have hother : ∀ other ∈ names, other ≠ name ∧ other ∉ seen := by
        simpa using hnew
      refine ⟨List.nodup_cons.2 ⟨fun hmem => (hother name hmem).1 rfl, hnames⟩, ?_⟩
      rw [List.forall_mem_cons]
      exact ⟨by simpa using hseen, fun other hmem => (hother other hmem).2⟩

theorem firstRepeated?_eq_none {seen names : List String} (hnames : names.Nodup)
    (hseen : ∀ name ∈ names, name ∉ seen) : firstRepeated? seen names = none := by
  induction names generalizing seen with
  | nil => rfl
  | cons name names ih =>
      rw [List.nodup_cons] at hnames
      rw [firstRepeated?, if_neg (by simpa using hseen name List.mem_cons_self)]
      apply ih hnames.2
      intro other hother hmem
      rcases List.mem_cons.1 hmem with rfl | hmem
      · exact hnames.1 hother
      · exact hseen other (List.mem_cons_of_mem name hother) hmem

namespace Book

variable {b : Book} {name : String}

theorem exists_of_read {t : TextTable} (h : b.read name = .ok t) :
    ∃ g : Grid, g.contents = t := by
  rw [read] at h
  split at h
  · next sheet _ => exact ⟨sheet.2, Except.ok.inj h⟩
  · cases h

theorem load_of_read {t : TextTable} (h : b.read name = .ok t)
    (hheader : t.header.Nodup) : b.load name = .ok (t.rows.map (TextTable.rowOf t.header)) := by
  rw [load, h]
  have hnone : firstRepeated? [] t.header = none := firstRepeated?_eq_none hheader (by simp)
  simp only [TextTable.toRows, hnone]

theorem uniform_of_load {rows : List Row} (h : b.load name = .ok rows) : Rows.Uniform rows := by
  rw [load] at h
  split at h
  · cases h
  · next t hread =>
      obtain ⟨g, rfl⟩ := exists_of_read hread
      rw [TextTable.toRows] at h
      split at h
      · cases h
      · next hnone =>
          cases h
          refine ⟨g.contents.header, fun row hrow => ?_⟩
          obtain ⟨texts, htexts, rfl⟩ := List.mem_map.1 hrow
          exact TextTable.columns_rowOf (nodup_of_firstRepeated? hnone).1
            (Grid.length_of_mem_contents htexts)

end Book

end TableQuery
