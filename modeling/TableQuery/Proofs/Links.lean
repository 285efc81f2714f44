import TableQuery.Proofs.Sql.Name
import TableQuery.Sheet.UsedRange
import TableQuery.Text.Casing

/-!
# Chains of joins

A chain joins tables of texts one after the other to a base table, each on a column of the base
table and a column of its own. Its rows are the rows of the base table beside rows of the joined
tables that have the text of the base row in their column.
-/

namespace TableQuery

open TableQuery.Text TableQuery.Sql

/-- A table joined on a column of the base table and on one of its own. -/
structure Link where
  name : String
  header : List String
  left : String
  right : String

/-- The rows of the tables under their names. -/
abbrev Contents := String → List (List String)

namespace Link

/-- The join of a request. -/
def spec (k : Link) : JoinSpec where
  table := k.name
  leftColumn := k.left
  rightColumn := k.right

/-- The name of the table and its header. -/
def named (k : Link) : String × List String :=
  (k.name, k.header)

/-- The columns of the joined table have different names, and both columns of the join are
there. -/
structure Fits (header : List String) (k : Link) : Prop where
  named : isName k.name = true
  columns_named : ∀ column ∈ k.header, isName column = true
  columns_distinct : (k.header.map lowerAscii).Nodup
  left_mem : k.left ∈ header
  right_mem : k.right ∈ k.header

instance (header : List String) (k : Link) : Decidable (k.Fits header) :=
  decidable_of_iff (isName k.name = true ∧ (∀ column ∈ k.header, isName column = true) ∧
      (k.header.map lowerAscii).Nodup ∧ k.left ∈ header ∧ k.right ∈ k.header)
    ⟨fun ⟨hname, hcolumns, hdistinct, hleft, hright⟩ =>
        ⟨hname, hcolumns, hdistinct, hleft, hright⟩,
      fun h => ⟨h.named, h.columns_named, h.columns_distinct, h.left_mem, h.right_mem⟩⟩

/-- A join leaves the column that another one reads at its value in the base table: the joined
table lacks the column, or is joined on this very column of both sides. -/
def Keeps (k m : Link) : Prop :=
  m.left ∈ k.header → k.left = m.left ∧ k.right = m.left

instance (k m : Link) : Decidable (k.Keeps m) :=
  inferInstanceAs (Decidable (m.left ∈ k.header → k.left = m.left ∧ k.right = m.left))

end Link

/-- The rows of two tables that have the same text at a position each. -/
def matchTexts (i j : Nat) (rows others : List (List String)) : List (List String) :=
  rows.flatMap fun l => (others.filter fun r => decide (l[i]? = r[j]?)).map fun r => l ++ r

/-- The rows of joins to a table with a header, every left column read in the base row. -/
def linkRows (contents : Contents) (header : List String) :
    List (List String) → List Link → List (List String)
  | rows, [] => rows
  | rows, k :: links =>
    linkRows contents header
      (matchTexts (header.idxOf k.left) (k.header.idxOf k.right) rows (contents k.name)) links

theorem mem_matchTexts {i j : Nat} {rows others : List (List String)} {row : List String} :
    row ∈ matchTexts i j rows others ↔
      ∃ l ∈ rows, ∃ r ∈ others, l[i]? = r[j]? ∧ row = l ++ r := by
  rw [matchTexts, List.mem_flatMap]
  constructor
  · rintro ⟨l, hl, hrow⟩
    obtain ⟨r, hr, rfl⟩ := List.mem_map.1 hrow
    rw [List.mem_filter, decide_eq_true_iff] at hr
    exact ⟨l, hl, r, hr.1, hr.2, rfl⟩
  · rintro ⟨l, hl, r, hr, heq, rfl⟩
    exact ⟨l, hl, List.mem_map_of_mem (List.mem_filter.2 ⟨hr, decide_eq_true heq⟩)⟩

theorem length_of_mem_matchTexts {i j width more : Nat} {rows others : List (List String)}
    (hrows : ∀ l ∈ rows, l.length = width) (hothers : ∀ r ∈ others, r.length = more) :
    ∀ l ∈ matchTexts i j rows others, l.length = width + more := by
  intro row hrow
  obtain ⟨l, hl, r, hr, -, rfl⟩ := mem_matchTexts.1 hrow
  rw [List.length_append, hrows l hl, hothers r hr]

theorem length_of_mem_linkRows {contents : Contents} {header columns : List String}
    {links : List Link} (hlinks : ∀ k ∈ links, ∀ row ∈ contents k.name, row.length = k.header.length)
    {rows : List (List String)} (hrows : ∀ l ∈ rows, l.length = columns.length) :
    ∀ l ∈ linkRows contents header rows links,
      l.length = (columns ++ links.flatMap Link.header).length := by
  induction links generalizing columns rows with
  | nil => simpa [linkRows] using hrows
  | cons k links ih =>
      intro l hl
      have hwidth : ∀ l ∈ matchTexts (header.idxOf k.left) (k.header.idxOf k.right) rows
          (contents k.name), l.length = (columns ++ k.header).length := by
        rw [List.length_append]
        exact length_of_mem_matchTexts hrows (hlinks k List.mem_cons_self)
      have hrest := ih (fun m hm => hlinks m (List.mem_cons_of_mem k hm)) hwidth l hl
      rw [hrest, List.append_assoc]
      rfl

/-- A base table and the tables that are joined to it. All names have one part, and names that
stand beside each other differ by more than the case of letters. -/
structure Chain where
  base : String
  header : List String
  links : List Link
  base_named : isName base = true
  columns_named : ∀ column ∈ header, isName column = true
  columns_distinct : (header.map lowerAscii).Nodup
  fits : ∀ k ∈ links, k.Fits header
  names_distinct : ((base :: links.map Link.name).map lowerAscii).Nodup

namespace Chain

/-- The names of the tables with their headers. -/
def tables (c : Chain) : List (String × List String) :=
  (c.base, c.header) :: c.links.map Link.named

/-- The columns of all tables side by side. -/
def columns (c : Chain) : List String :=
  c.header ++ c.links.flatMap Link.header

/-- The rows of the chain. -/
def rows (c : Chain) (contents : Contents) : List (List String) :=
  linkRows contents c.header (contents c.base) c.links

/-- Every row has a text for each column of its table. -/
def Full (c : Chain) (contents : Contents) : Prop :=
  ∀ table ∈ c.tables, ∀ row ∈ contents table.1, row.length = table.2.length

instance (c : Chain) (contents : Contents) : Decidable (c.Full contents) :=
  inferInstanceAs
    (Decidable (∀ table ∈ c.tables, ∀ row ∈ contents table.1, row.length = table.2.length))

theorem Full.base {c : Chain} {contents : Contents} (h : c.Full contents) :
    ∀ row ∈ contents c.base, row.length = c.header.length :=
  h (c.base, c.header) List.mem_cons_self

theorem Full.link {c : Chain} {contents : Contents} (h : c.Full contents) :
    ∀ k ∈ c.links, ∀ row ∈ contents k.name, row.length = k.header.length :=
  fun k hk => h k.named (List.mem_cons_of_mem _ (List.mem_map_of_mem hk))

theorem length_of_mem_rows {c : Chain} {contents : Contents} (h : c.Full contents) :
    ∀ row ∈ c.rows contents, row.length = c.columns.length :=
  length_of_mem_linkRows h.link h.base

end Chain

end TableQuery
