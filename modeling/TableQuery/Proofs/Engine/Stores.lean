import TableQuery.Proofs.Engine.Join
import TableQuery.Proofs.Sheet.Texts

/-!
# Stores that hold a chain

Every contents of a chain of joins is held by a database and by a book, as long as it has no
blank row: no name of one table is taken for another, in neither way of comparing names.
-/

namespace TableQuery

open TableQuery.Text TableQuery.Sql

theorem find?_eq_some_of_unique {α : Type} {p : α → Bool} {xs : List α} {x : α} (hx : x ∈ xs)
    (hp : p x = true) (h : ∀ y ∈ xs, p y = true → y = x) : xs.find? p = some x := by
  have hsome : (xs.find? p).isSome = true := List.find?_isSome.2 ⟨x, hx, hp⟩
  obtain ⟨y, hy⟩ := Option.isSome_iff_exists.1 hsome
  rw [hy, h y (List.mem_of_find?_eq_some hy) (List.find?_some hy)]

namespace Chain

theorem map_fst_tables (c : Chain) : c.tables.map Prod.fst = c.base :: c.links.map Link.name := by
  rw [tables, List.map_cons, List.map_map]
  rfl

theorem eq_of_lowerAscii_eq {c : Chain} {a b : String × List String} (ha : a ∈ c.tables)
    (hb : b ∈ c.tables) (h : lowerAscii a.1 = lowerAscii b.1) : a = b := by
  have hdistinct := c.names_distinct
  rw [← map_fst_tables, List.map_map] at hdistinct
  exact List.inj_on_of_nodup_map hdistinct ha hb h

theorem isName_of_mem_tables {c : Chain} {table : String × List String} (h : table ∈ c.tables) :
    isName table.1 = true ∧ ∀ column ∈ table.2, isName column = true := by
  rcases List.mem_cons.1 h with rfl | h
  · exact ⟨c.base_named, c.columns_named⟩
  · obtain ⟨k, hk, rfl⟩ := List.mem_map.1 h
    exact ⟨(c.fits k hk).named, (c.fits k hk).columns_named⟩

theorem header_ne_nil {c : Chain} (hlinks : c.links ≠ []) {table : String × List String}
    (h : table ∈ c.tables) : table.2 ≠ [] := by
  rcases List.mem_cons.1 h with rfl | h
  · obtain ⟨k, hk⟩ := List.exists_mem_of_ne_nil c.links hlinks
    exact List.ne_nil_of_mem (c.fits k hk).left_mem
  · obtain ⟨k, hk, rfl⟩ := List.mem_map.1 h
    exact List.ne_nil_of_mem (c.fits k hk).right_mem

/-- The database of the tables of a chain. -/
def database (c : Chain) (contents : Contents) : Database where
  tables := c.tables.map fun table => TableData.ofTexts table.1 ⟨table.2, contents table.1⟩

/-- The book of the tables of a chain. -/
def book (c : Chain) (contents : Contents) : Book :=
  c.tables.map fun table => (table.1, (table.2 :: contents table.1).map (List.map .text))

theorem inDatabase_database (c : Chain) (contents : Contents) :
    c.InDatabase contents (c.database contents) := by
  intro table htable
  rw [Database.table?, database, List.find?_map]
  rw [find?_eq_some_of_unique htable]
  · rfl
  · exact sameName_iff.2 rfl
  · intro other hother h
    exact eq_of_lowerAscii_eq hother htable (sameName_iff.1 h)

theorem inBook_book {c : Chain} {contents : Contents} (hlinks : c.links ≠ [])
    (hfull : c.Full contents)
    (hused : ∀ table ∈ c.tables, ∀ row ∈ contents table.1, ∃ s ∈ row, isBlankText s = false) :
    c.InBook contents (c.book contents) := by
  intro table htable
  obtain ⟨hname, hcolumns⟩ := isName_of_mem_tables htable
  have hfind : c.tables.find? (fun other => sameFold other.1 table.1) = some table := by
    apply find?_eq_some_of_unique htable
    · exact (sameFold_iff_of_isName hname hname).2 rfl
    · intro other hother h
      have hother' := (isName_of_mem_tables hother).1
      exact eq_of_lowerAscii_eq hother htable ((sameFold_iff_of_isName hother' hname).1 h)
  have hcontents := Grid.contents_texts (header_ne_nil hlinks htable)
    (fun column hcolumn => isBlankText_of_isName (hcolumns column hcolumn)) (hfull table htable)
    (hused table htable)
  rw [Book.read, book, List.find?_map]
  simp only [Function.comp_def, hfind, Option.map_some, hcontents]

theorem heldAlike_stores {c : Chain} {contents : Contents} (hlinks : c.links ≠ [])
    (hfull : c.Full contents)
    (hused : ∀ table ∈ c.tables, ∀ row ∈ contents table.1, ∃ s ∈ row, isBlankText s = false) :
    c.HeldAlike contents (c.database contents) (c.book contents) :=
  ⟨hfull, c.inDatabase_database contents, inBook_book hlinks hfull hused⟩

end Chain

end TableQuery
