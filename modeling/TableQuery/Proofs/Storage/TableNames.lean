import Mathlib.Data.List.Flatten
import TableQuery.Proofs.Sheet.TableName
import TableQuery.Proofs.Sheet.Writing
import TableQuery.Proofs.Storage.Invariant

/-!
# The names of the tables of a stored workbook

A sheet that is written brings a table of its own, which is named beside the tables of the sheets
that stay. So however often sheets are replaced and brought back, no two tables of the workbook have
the same name without regard to case, and each name is a valid one.
-/

namespace TableQuery

open TableQuery.Text

namespace Workbook

/-- The names of the tables differ, also without regard to case; they are made of letters, digits
and underscores, and none is a reference to cells. -/
structure NamesTables (w : Workbook) : Prop where
  distinct : w.tableNames.Pairwise fun a b => sameFold a b = false
  valid : ∀ name ∈ w.tableNames, TableName.IsName name.toList
  no_reference : ∀ name ∈ w.tableNames, ¬TableName.Refers name.toList

theorem NamesTables.of_eq_nil {w : Workbook} (h : w.tableNames = []) : w.NamesTables where
  distinct := by simp [h]
  valid := by simp [h]
  no_reference := by simp [h]

theorem dropMatching_sublist (name : String) (sheets : List Sheet) :
    (dropMatching name sheets).Sublist sheets := by
  obtain ⟨front, removed, back, hsheets, hdrop, -, -⟩ := exists_dropMatching_eq name sheets
  rw [hdrop, hsheets, List.append_assoc]
  exact (List.Sublist.refl front).append (List.sublist_append_right _ _)

theorem map_name_tables_of_write {title : String} {names : List String} {t : TextTable} {s : Sheet}
    (h : Sheet.write title names t = .ok s) :
    (s.tables.map SheetTable.name).Sublist [TableName.choose names title] := by
  obtain ⟨header, -, h⟩ := bind_eq_ok_iff.1 h
  obtain ⟨body, -, h⟩ := bind_eq_ok_iff.1 h
  obtain ⟨tables, htables, h⟩ := bind_eq_ok_iff.1 h
  obtain ⟨widths, -, h⟩ := bind_eq_ok_iff.1 h
  cases h
  rw [Sheet.tablesOver] at htables
  split_ifs at htables
  · cases htables
    exact List.nil_sublist _
  · obtain ⟨range, -, rfl⟩ := map_eq_ok_iff.1 htables
    exact .refl _

theorem tableNames_of_replaceSheet {w w' : Workbook} {name : String} {t : TextTable}
    (h : w.replaceSheet name t = .ok w') :
    ∃ others title, others.Sublist w.tableNames ∧
      w'.tableNames.Sublist (others ++ [TableName.choose others title]) := by
  obtain ⟨title, s, -, hwrite, hsheets⟩ := exists_of_replaceSheet h
  refine ⟨_, title, (dropMatching_sublist name w.sheets).flatMap fun s =>
    s.tables.map SheetTable.name, ?_⟩
  have hnames : w'.tableNames = Workbook.tableNames ⟨dropMatching name w.sheets⟩ ++
      s.tables.map SheetTable.name := by
    rw [tableNames, hsheets, List.flatMap_append, List.flatMap_singleton,
      ← Staging.tableNames_map_kept]
    rfl
  rw [hnames]
  exact (List.Sublist.refl _).append (map_name_tables_of_write hwrite)

/-- Replacing a sheet keeps the tables well named. -/
theorem NamesTables.replaceSheet {w w' : Workbook} {name : String} {t : TextTable}
    (h : w.NamesTables) (hreplace : w.replaceSheet name t = .ok w') : w'.NamesTables := by
  obtain ⟨others, title, hothers, hnames⟩ := tableNames_of_replaceSheet hreplace
  have hmem : ∀ other ∈ w'.tableNames, other ∈ w.tableNames ∨
      other = TableName.choose others title := by
    intro other hother
    rcases List.mem_append.1 (hnames.subset hother) with hother | hother
    · exact .inl (hothers.subset hother)
    · exact .inr (List.mem_singleton.1 hother)
  constructor
  case distinct =>
    refine List.Pairwise.sublist hnames (List.pairwise_append.2 ⟨h.distinct.sublist hothers,
      List.pairwise_singleton _ _, ?_⟩)
    intro other hother chosen hchosen
    rw [List.mem_singleton.1 hchosen]
    exact TableName.sameFold_choose others title other hother
  case valid =>
    intro other hother
    rcases hmem other hother with hold | rfl
    · exact h.valid other hold
    · exact TableName.isName_choose others title
  case no_reference =>
    intro other hother
    rcases hmem other hother with hold | rfl
    · exact h.no_reference other hold
    · exact TableName.not_refers_choose others title

end Workbook

namespace Staging

/-- Tables stay well named over every run that starts and installs without tables, and the search
for a name always ends with the one that is chosen. -/
theorem final_namesTables :
    (∀ (disk : Disk) (temp : TempNames) (path : Option String) (files : Files)
      (steps : List Step), Stores path (fun w => w.tableNames = []) files →
      (∀ step ∈ steps, step.Brings fun w => w.tableNames = []) →
      Stores path Workbook.NamesTables (final disk temp path files steps)) ∧
    ∀ (taken : List String) (sheet : String),
      TableName.Search taken (TableName.base sheet) (TableName.base sheet) 1
        (TableName.choose taken sheet).toList := by
  refine ⟨?_, TableName.search_choose⟩
  intro disk temp path files steps hstart hinstalls
  refine stores_final (p := Workbook.NamesTables) disk (fun w w' name t h => h.replaceSheet) temp
    ?_ ?_
  · exact fun w hw => .of_eq_nil (hstart w hw)
  · exact fun step hstep w hw => .of_eq_nil (hinstalls step hstep w hw)

/-- A workbook of one sheet without tables. -/
def ledger : Workbook := ⟨[{ title := "Ledger", rows := [[some ⟨.text "day", false⟩]] }]⟩

/-- Sheets whose names give one table name, sheets named like cells, one of them refused, and one
that is written again under a name in capitals. -/
def reports : List Step :=
  [.install (.workbook ledger), .replaceSheet "Out 1" ⟨["a"], [["1"]]⟩,
    .replaceSheet "out-1" ⟨["a"], [["2"]]⟩, .replaceSheet "FY24" ⟨["a"], []⟩,
    .replaceSheet "R[1]" ⟨["a"], []⟩,
    .exportRows "T_FY24" [TextTable.rowOf ["a"] ["3"]], .replaceSheet "OUT 1" ⟨["b"], [["4"]]⟩]

theorem final_namesTables_reports :
    Stores (some "book.xlsx") (fun w => w.tableNames = []) {} ∧
      (∀ step ∈ reports, step.Brings fun w => w.tableNames = []) ∧
      ∃ w, WorkbookFile.openFile (final .roomy default (some "book.xlsx") {} reports)
          (some "book.xlsx") = .ok w ∧
        w.tableNames = ["out_1_2", "T_FY24", "T_FY24_2", "OUT_1"] ∧ w.NamesTables := by
  have hstart : Stores (some "book.xlsx") (fun w => w.tableNames = []) {} := by
    intro w hw
    cases hw
  have hinstalls : ∀ step ∈ reports, step.Brings fun w => w.tableNames = [] := by
    intro step hstep w hw
    subst hw
    simp only [reports, List.mem_cons, Step.install.injEq, Content.workbook.injEq, reduceCtorEq,
      List.not_mem_nil, or_false] at hstep
    rw [hstep]
    rfl
  have hfinal : (WorkbookFile.openFile (final .roomy default (some "book.xlsx") {} reports)
      (some "book.xlsx")).toOption.map Workbook.tableNames =
        some ["out_1_2", "T_FY24", "T_FY24_2", "OUT_1"] := by
    decide +kernel
  cases hopen : WorkbookFile.openFile (final .roomy default (some "book.xlsx") {} reports)
      (some "book.xlsx") with
  | error e =>
      rw [hopen] at hfinal
      cases hfinal
  | ok w =>
      rw [hopen] at hfinal
      exact ⟨hstart, hinstalls, w, rfl, Option.some.inj hfinal,
        final_namesTables.1 .roomy default (some "book.xlsx") {} reports hstart hinstalls w hopen⟩

end Staging

end TableQuery
