import TableQuery.Proofs.Sheet.Markup
import TableQuery.Proofs.Storage.RoundTrip

/-!
# What a name stands for after it was written

A write takes away the first sheet that matches its name and puts a new one at the end. When no
other sheet matched, the new sheet has the name for its title, is the only one that matches it and
is the one that is read. When another one did, that one is read from then on, and never the new one.
The workbook stays one that a file can hold.
-/

namespace TableQuery

open TableQuery.Text

/-- The sheet holds a table: its header in bold above its rows, text by text. -/
def Sheet.Holds (t : TextTable) (s : Sheet) : Prop :=
  ∃ header body, s.rows = header :: body ∧ RowHolds true t.header header ∧
    List.Forall₂ (RowHolds false) t.rows body

namespace Workbook

/-- The sheets whose title matches a name. -/
def matching (w : Workbook) (name : String) : List Sheet :=
  w.sheets.filter fun s => sameFold s.title name

/-- The last sheet of a workbook is all that a name stands for: it has the name for its title and
holds the table, no other sheet matches the name, and it is the one that is read. -/
structure Replaced (w : Workbook) (name : String) (t : TextTable) (s : Sheet) : Prop where
  last : w.sheets.getLast? = some s
  title_eq : s.title = name
  holds : s.Holds t
  alone : (w.titles.filter fun title => sameFold title name) = [name]
  read_eq : w.book.read name = .ok s.grid.contents

theorem filter_titles (w : Workbook) (name : String) :
    w.titles.filter (fun title => sameFold title name) = (w.matching name).map Sheet.title := by
  rw [titles, List.filter_map]
  rfl

theorem read_of_matching {w : Workbook} {name : String} {s : Sheet} {others : List Sheet}
    (h : w.matching name = s :: others) : w.book.read name = .ok s.grid.contents := by
  have hfind : w.sheets.find? (fun s => sameFold s.title name) = some s := by
    rw [← List.head?_filter, ← matching, h, List.head?_cons]
  rw [Book.read, book, List.find?_map]
  simp only [Function.comp_def, hfind, Option.map_some]

/-- Of the sheets that match, the first one is taken away. -/
theorem filter_dropMatching (name : String) (sheets : List Sheet) :
    (dropMatching name sheets).filter (fun s => sameFold s.title name) =
      (sheets.filter fun s => sameFold s.title name).tail := by
  induction sheets with
  | nil => rfl
  | cons s sheets ih =>
      rw [dropMatching]
      by_cases hs : sameFold s.title name = true
      · rw [if_pos hs, List.filter_cons, if_pos hs, List.tail_cons]
      · rw [if_neg hs, List.filter_cons, if_neg hs, List.filter_cons, if_neg hs, ih]

theorem filter_map_kept (name : String) (sheets : List Sheet) :
    (sheets.map Sheet.kept).filter (fun s => sameFold s.title name) =
      (sheets.filter fun s => sameFold s.title name).map Sheet.kept := by
  rw [List.filter_map]
  rfl

theorem unused_of_choose {titles : List String} {name title : String} (hname : name ≠ "")
    (h : Title.choose titles name = .ok title) : title = Title.unused titles name := by
  rw [Title.choose, if_neg hname] at h
  split at h
  · cases h
  · exact (Except.ok.inj h).symm

section Written

variable {w w' : Workbook} {name : String} {t : TextTable}

/-- The new sheet is written last. The sheets in front of it that match are those that matched
before, without the first. -/
theorem exists_last_of_replaceSheet (hname : name ≠ "") (h : w.replaceSheet name t = .ok w') :
    ∃ s names, w'.sheets.getLast? = some s ∧ Sheet.write s.title names t = .ok s ∧
      s.title = Title.unused ((dropMatching name w.sheets).map Sheet.title) name ∧
      w'.matching name =
        (w.matching name).tail.map Sheet.kept ++ [s].filter fun s => sameFold s.title name := by
  obtain ⟨title, s, htitle, hwrite, hsheets⟩ := exists_of_replaceSheet h
  obtain ⟨rfl, -⟩ := Sheet.exists_of_write hwrite
  refine ⟨s, _, by rw [hsheets, List.getLast?_concat], hwrite, ?_, ?_⟩
  · exact unused_of_choose hname htitle
  · rw [matching, hsheets, List.filter_append, filter_map_kept, filter_dropMatching, matching]

theorem exists_replaced (hname : name ≠ "") (h : w.replaceSheet name t = .ok w')
    (hunique : (w.matching name).length ≤ 1) :
    ∃ s names, Sheet.write s.title names t = .ok s ∧ w'.Replaced name t s := by
  obtain ⟨s, names, hlast, hwrite, htitle, hmatching⟩ := exists_last_of_replaceSheet hname h
  have hothers : ∀ title ∈ (dropMatching name w.sheets).map Sheet.title,
      sameFold title name = false := by
    intro title hmem
    obtain ⟨other, hother, rfl⟩ := List.mem_map.1 hmem
    exact sameFold_dropMatching hunique other hother
  rw [Title.unused_eq_self hothers] at htitle
  have hsame : sameFold s.title name = true := by
    rw [htitle, sameFold_iff]
  have htail : (w.matching name).tail = [] := by
    rw [← List.length_eq_zero_iff, List.length_tail]
    omega
  rw [htail, List.map_nil, List.nil_append, List.filter_cons, if_pos hsame, List.filter_nil]
    at hmatching
  obtain ⟨-, hholds⟩ := Sheet.exists_of_write hwrite
  refine ⟨s, names, hwrite, hlast, htitle, hholds, ?_, read_of_matching hmatching⟩
  rw [filter_titles, hmatching, List.map_cons, htitle, List.map_nil]

/-- Another sheet that matched is read in place of the new one. -/
theorem read_of_second (hname : name ≠ "") (h : w.replaceSheet name t = .ok w')
    {first second : Sheet} {others : List Sheet}
    (hmatching : w.matching name = first :: second :: others) :
    w'.book.read name = .ok second.grid.contents := by
  obtain ⟨s, -, -, -, -, hmatching'⟩ := exists_last_of_replaceSheet hname h
  rw [hmatching, List.tail_cons, List.map_cons, List.cons_append] at hmatching'
  rw [read_of_matching hmatching', ← second.same_kept.grid_eq]

/-- The new sheet is the last of those that match, so with another one in front it is not alone. -/
theorem length_matching_le (hname : name ≠ "") (h : w.replaceSheet name t = .ok w') {s : Sheet}
    (hs : w'.Replaced name t s) : (w.matching name).length ≤ 1 := by
  obtain ⟨added, -, hlast, -, -, hmatching⟩ := exists_last_of_replaceSheet hname h
  obtain rfl : s = added := Option.some.inj (hs.last.symm.trans hlast)
  have hsame : sameFold s.title name = true := by
    rw [hs.title_eq, sameFold_iff]
  have halone := congrArg List.length hs.alone
  rw [filter_titles, hmatching, List.filter_cons, if_pos hsame, List.filter_nil, List.length_map,
    List.length_append, List.length_map, List.length_tail, List.length_singleton,
    List.length_singleton] at halone
  omega

end Written

end Workbook

namespace WorkbookFile

variable {files files' : Files} {path : Option String} {w : Workbook} {name : String}
  {t : TextTable}

/-- A name stands for the sheet that was written under it, and for no other, exactly when it stood
for one sheet at most before. When it stood for more, the second of them is read from then on. The
name and the texts are ones that a file can hold, and then the file holds the whole workbook. -/
theorem replaced_iff (hopen : openFile files path = .ok w) (hname : name ≠ "")
    (hmarkup : Text.OfMarkup name.toList) (ht : t.OfMarkup)
    (h : replaceSheet files path name t = .ok files') :
    ∃ w', openFile files' path = .ok w' ∧ (w.OfMarkup → w'.OfMarkup) ∧
      ((∃ s, w'.Replaced name t s) ↔ (w.matching name).length ≤ 1) ∧
      ∀ first second others, w.matching name = first :: second :: others →
        w'.book.read name = .ok second.grid.contents := by
  rw [replaceSheet_of_openFile hopen] at h
  obtain ⟨w', hreplace, rfl⟩ := map_eq_ok_iff.1 h
  refine ⟨w', Staging.openFile_save hopen, fun hw => hw.replaceSheet hmarkup ht hreplace, ⟨?_, ?_⟩,
    ?_⟩
  · rintro ⟨s, hs⟩
    exact Workbook.length_matching_le hname hreplace hs
  · intro hunique
    obtain ⟨s, -, -, hs⟩ := Workbook.exists_replaced hname hreplace hunique
    exact ⟨s, hs⟩
  · intro first second others hmatching
    exact Workbook.read_of_second hname hreplace hmatching

/-- Two sheets whose titles are the same in case folding, though not in lower case. -/
def streets : Workbook :=
  ⟨[{ title := "straße", rows := [[some ⟨.text "old", false⟩]] },
    { title := "STRASSE", rows := [[some ⟨.text "older", false⟩]] }]⟩

theorem replaced_iff_streets :
    openFile (save {} (some "book.xlsx") streets) (some "book.xlsx") = .ok streets ∧
      streets.OfMarkup ∧
      ∃ files', replaceSheet (save {} (some "book.xlsx") streets) (some "book.xlsx") "Straße"
          ⟨["new"], [["1"]]⟩ = .ok files' ∧
        ∃ w', openFile files' (some "book.xlsx") = .ok w' ∧ w'.OfMarkup ∧
          (¬∃ s, w'.Replaced "Straße" ⟨["new"], [["1"]]⟩ s) ∧
          w'.book.read "Straße" = .ok ⟨["older"], []⟩ := by
  have hopen : openFile (save {} (some "book.xlsx") streets) (some "book.xlsx") = .ok streets := rfl
  have hmatching : streets.matching "Straße" = streets.sheets := by
    rw [Workbook.matching, List.filter_eq_self]
    decide
  obtain ⟨files', h⟩ : ∃ files', replaceSheet (save {} (some "book.xlsx") streets)
      (some "book.xlsx") "Straße" ⟨["new"], [["1"]]⟩ = .ok files' := ⟨_, rfl⟩
  have hmarkup : streets.OfMarkup := by
    intro s hs
    constructor
    all_goals
      revert s
      decide
  obtain ⟨w', hopen', hheld, hiff, hsecond⟩ := replaced_iff hopen (by decide) (by decide)
    (by decide) h
  refine ⟨hopen, hmarkup, files', h, w', hopen', hheld hmarkup, ?_, hsecond _ _ _ hmatching⟩
  rw [hiff, hmatching]
  decide

/-- A name that stood for two sheets does not stand for the new one. -/
theorem not_replaced_streets :
    ∃ files' w', replaceSheet (save {} (some "book.xlsx") streets) (some "book.xlsx") "strasse"
        ⟨["new"], [["1"]]⟩ = .ok files' ∧ openFile files' (some "book.xlsx") = .ok w' ∧
      w'.titles = ["STRASSE", "strasse1"] ∧ w'.book.read "strasse" = .ok ⟨["older"], []⟩ ∧
      ¬∃ s, w'.Replaced "strasse" ⟨["new"], [["1"]]⟩ s := by
  refine ⟨_, _, rfl, rfl, rfl, rfl, ?_⟩
  rintro ⟨s, hs⟩
  have halone := hs.alone
  revert halone
  decide

end WorkbookFile

end TableQuery
