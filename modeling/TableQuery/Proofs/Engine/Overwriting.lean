import TableQuery.Proofs.Engine.Stores
import TableQuery.Proofs.Tabular.Stages

/-!
# Joins that overwrite a column

A probe marks one column of the base table, and every table of a chain has one row that joins
the marked row. A join that does not keep the marked column takes its mark away in a book, and
then nothing joins on that column any more. So the engines give the same rows for all contents
only when no join changes a column that a later one reads.
-/

namespace TableQuery

open TableQuery.Text TableQuery.Sql

/-- The text that tells a column from the others. -/
def mark (column other : String) : String :=
  if other = column then "v" else "w"

theorem isBlankText_mark (column other : String) : isBlankText (mark column other) = false := by
  rw [mark]
  split <;> decide

/-- The row of a joined table that has the text of the marked row in its column, and elsewhere the
text of the columns without a mark. -/
def Link.probe (column : String) (k : Link) : List String :=
  k.header.map fun other => if other = k.right then mark column k.left else "w"

namespace Chain

/-- The contents that mark a column of the base table. -/
def probe (c : Chain) (column : String) : Contents := fun name =>
  if name = c.base then [c.header.map (mark column)]
  else (c.links.find? fun k => k.name = name).toList.map (Link.probe column)

theorem probe_base (c : Chain) (column : String) :
    c.probe column c.base = [c.header.map (mark column)] :=
  if_pos rfl

theorem probe_link {c : Chain} {k : Link} (hk : k ∈ c.links) (column : String) :
    c.probe column k.name = [k.probe column] := by
  have hdistinct := c.names_distinct
  rw [List.map_cons, List.nodup_cons, List.map_map] at hdistinct
  have hbase : ¬k.name = c.base := by
    intro h
    apply hdistinct.1
    rw [← h]
    exact List.mem_map_of_mem hk
  have hfind : c.links.find? (fun m => decide (m.name = k.name)) = some k := by
    apply find?_eq_some_of_unique hk (decide_eq_true rfl)
    intro m hm heq
    apply List.inj_on_of_nodup_map hdistinct.2 hm hk
    rw [Function.comp_apply, Function.comp_apply, of_decide_eq_true heq]
  rw [probe, if_neg hbase, hfind]
  rfl

theorem exists_of_mem_probe {c : Chain} {column : String} {table : String × List String}
    (htable : table ∈ c.tables) {row : List String} (hrow : row ∈ c.probe column table.1) :
    ∃ text : String → String, (∀ other, isBlankText (text other) = false) ∧
      row = table.2.map text := by
  rcases List.mem_cons.1 htable with rfl | htable
  · rw [probe_base] at hrow
    exact ⟨mark column, isBlankText_mark column, List.mem_singleton.1 hrow⟩
  · obtain ⟨k, hk, rfl⟩ := List.mem_map.1 htable
    rw [Link.named, probe_link hk] at hrow
    refine ⟨_, fun other => ?_, List.mem_singleton.1 hrow⟩
    split
    · exact isBlankText_mark column k.left
    · decide

theorem full_probe (c : Chain) (column : String) : c.Full (c.probe column) := by
  intro table htable row hrow
  obtain ⟨text, -, rfl⟩ := exists_of_mem_probe htable hrow
  exact List.length_map text

theorem heldAlike_probe {c : Chain} (hlinks : c.links ≠ []) (column : String) :
    c.HeldAlike (c.probe column) (c.database (c.probe column)) (c.book (c.probe column)) := by
  apply heldAlike_stores hlinks (c.full_probe column)
  intro table htable row hrow
  obtain ⟨text, htext, rfl⟩ := exists_of_mem_probe htable hrow
  obtain ⟨other, hother⟩ := List.exists_mem_of_ne_nil table.2 (header_ne_nil hlinks htable)
  exact ⟨text other, List.mem_map_of_mem hother, htext other⟩

end Chain

theorem getElem?_idxOf_map {header : List String} {column : String} (h : column ∈ header)
    (text : String → String) : (header.map text)[header.idxOf column]? = some (text column) := by
  rw [List.getElem?_map, List.getElem?_idxOf h]
  rfl

/-- The marked row of a base table joins all rows of a probe. -/
theorem linkRows_probe_ne_nil {contents : Contents} {header : List String} {links : List Link}
    {column : String} (hfits : ∀ k ∈ links, k.Fits header)
    (hcontents : ∀ k ∈ links, contents k.name = [k.probe column]) {rows : List (List String)}
    (hrows : ∃ l ∈ rows, ∀ other ∈ header, l[header.idxOf other]? = some (mark column other)) :
    linkRows contents header rows links ≠ [] := by
  induction links generalizing rows with
  | nil =>
      obtain ⟨l, hl, -⟩ := hrows
      exact List.ne_nil_of_mem hl
  | cons k links ih =>
      obtain ⟨-, -, -, hleft, hright⟩ := hfits k List.mem_cons_self
      obtain ⟨l, hl, hmark⟩ := hrows
      rw [linkRows, hcontents k List.mem_cons_self]
      apply ih (fun m hm => hfits m (List.mem_cons_of_mem k hm))
        (fun m hm => hcontents m (List.mem_cons_of_mem k hm))
      refine ⟨l ++ k.probe column, mem_matchTexts.2 ⟨l, hl, _, List.mem_singleton.2 rfl, ?_, rfl⟩, ?_⟩
      · rw [hmark k.left hleft, Link.probe, getElem?_idxOf_map hright, if_pos rfl]
      · intro other hother
        obtain ⟨hlength, hget⟩ := List.getElem?_eq_some_iff.1 (hmark other hother)
        rw [List.getElem?_append_left hlength, List.getElem?_eq_getElem hlength, hget]

namespace Rows

theorem exists_of_mem_nestedLoop_singleton {left : List Row} {right row : Row}
    {leftColumn rightColumn : String} (h : row ∈ nestedLoop left [right] leftColumn rightColumn) :
    ∃ l ∈ left, matching leftColumn rightColumn l right = true ∧ row = l.merge right := by
  obtain ⟨l, hl, r, hr, hmatch, rfl⟩ := mem_nestedLoop.1 h
  cases List.mem_singleton.1 hr
  exact ⟨l, hl, hmatch, rfl⟩

end Rows

namespace Link

theorem get?_probe {k : Link} (hdistinct : k.header.Nodup) (column other : String) :
    (TextTable.rowOf k.header (k.probe column)).get? other =
      if other ∈ k.header then
        some (.text (if other = k.right then mark column k.left else "w"))
      else none := by
  have hlength : (k.probe column).length = k.header.length := by
    rw [probe, List.length_map]
  rw [TextTable.get?_rowOf hdistinct hlength]
  split
  · next h =>
    rw [probe, getElem?_idxOf_map h]
    rfl
  · next h =>
    rw [List.idxOf_eq_length h, ← hlength, List.getElem?_eq_none (Nat.le_refl _)]
    rfl

/-- A join that is not on the marked column of both sides leaves that column without the mark,
whether it overwrites the column or finds it so. -/
theorem get?_merge_probe {k : Link} (hdistinct : k.header.Nodup) {column : String}
    (hk : ¬(k.left = column ∧ k.right = column)) {l : Row}
    (hl : column ∈ k.header ∨ l.get? column = some (.text "w")) :
    (l.merge (TextTable.rowOf k.header (k.probe column))).get? column = some (.text "w") := by
  rw [Row.get?_merge, get?_probe hdistinct]
  by_cases hmem : column ∈ k.header
  · have hw : (if column = k.right then mark column k.left else "w") = "w" := by
      split
      · next hright => exact if_neg fun hleft => hk ⟨hleft, hright.symm⟩
      · rfl
    rw [if_pos hmem, hw, Option.some_or]
  · rw [if_neg hmem, Option.none_or]
    exact hl.resolve_left hmem

/-- A row without the mark does not match the row that is joined on the marked column. -/
theorem not_matching_probe {k : Link} {header : List String} (hfits : k.Fits header) {l : Row}
    (hl : l.get? k.left = some (.text "w")) :
    ¬Rows.matching k.left k.right l (TextTable.rowOf k.header (k.probe k.left)) = true := by
  have hget := get?_probe hfits.nodup k.left k.right
  rw [if_pos hfits.right_mem, if_pos rfl, mark, if_pos rfl] at hget
  rw [Rows.matching_text hl hget]
  decide

/-- The sheet of a joined table in a book of a probe. -/
structure InProbe (b : Book) (column : String) (header : List String) (k : Link) : Prop where
  fits : k.Fits header
  load : b.load k.name = .ok [TextTable.rowOf k.header (k.probe column)]

/-- The joined rows each come from a row before, which the row of the probe matches. -/
theorem InProbe.exists_next {b : Book} {column : String} {header : List String} {k : Link}
    (hk : k.InProbe b column header) {rows joined : List Row} {links : List Link}
    (h : Tabular.joinSheets b rows ((k :: links).map spec) = .ok joined) :
    ∃ next, Tabular.joinSheets b next (links.map spec) = .ok joined ∧ ∀ row ∈ next, ∃ l ∈ rows,
      Rows.matching k.left k.right l (TextTable.rowOf k.header (k.probe column)) = true ∧
        row = l.merge (TextTable.rowOf k.header (k.probe column)) := by
  obtain ⟨right, next, hload, hjoin, hrest⟩ := Tabular.exists_of_joinSheets_cons h
  have hright : right = [TextTable.rowOf k.header (k.probe column)] :=
    Except.ok.inj (hload.symm.trans hk.load)
  refine ⟨next, hrest, fun row hrow => ?_⟩
  rw [Rows.eq_nestedLoop_of_join hjoin, hright] at hrow
  exact Rows.exists_of_mem_nestedLoop_singleton hrow

end Link

namespace Tabular

variable {b : Book} {column : String} {header : List String} {links : List Link}

/-- Without the mark in any row nothing joins on the marked column. -/
theorem eq_nil_of_joinSheets_unmarked (hprobe : ∀ k ∈ links, k.InProbe b column header)
    (hreads : ∃ m ∈ links, m.left = column) {rows joined : List Row}
    (hrows : ∀ l ∈ rows, l.get? column = some (.text "w"))
    (h : joinSheets b rows (links.map Link.spec) = .ok joined) : joined = [] := by
  induction links generalizing rows with
  | nil => simp at hreads
  | cons k links ih =>
      have hk := hprobe k List.mem_cons_self
      obtain ⟨next, hrest, hnext⟩ := hk.exists_next h
      by_cases hleft : k.left = column
      · subst hleft
        have hnil : next = [] := by
          rw [List.eq_nil_iff_forall_not_mem]
          intro row hrow
          obtain ⟨l, hl, hmatch, -⟩ := hnext row hrow
          exact Link.not_matching_probe hk.fits (hrows l hl) hmatch
        rw [hnil] at hrest
        exact eq_nil_of_joinSheets_nil hrest
      · apply ih (fun m hm => hprobe m (List.mem_cons_of_mem k hm)) _ _ hrest
        · obtain ⟨m, hm, heq⟩ := hreads
          rcases List.mem_cons.1 hm with rfl | hm
          · exact absurd heq hleft
          · exact ⟨m, hm, heq⟩
        · intro row hrow
          obtain ⟨l, hl, -, rfl⟩ := hnext row hrow
          exact Link.get?_merge_probe hk.fits.nodup (fun hboth => hleft hboth.1) (.inr (hrows l hl))

/-- A join that changes the marked column and a later one on that column leave no row. -/
theorem eq_nil_of_joinSheets_overwritten (hprobe : ∀ k ∈ links, k.InProbe b column header)
    {k m : Link} (hlinks : [k, m].Sublist links) (hmem : column ∈ k.header)
    (hk : ¬(k.left = column ∧ k.right = column)) (hm : m.left = column) {rows joined : List Row}
    (h : joinSheets b rows (links.map Link.spec) = .ok joined) : joined = [] := by
  induction links generalizing rows with
  | nil => cases hlinks
  | cons n links ih =>
      have hn := hprobe n List.mem_cons_self
      have hprobe' : ∀ n ∈ links, n.InProbe b column header := fun n' hn' =>
        hprobe n' (List.mem_cons_of_mem n hn')
      obtain ⟨next, hrest, hnext⟩ := hn.exists_next h
      cases hlinks with
      | cons _ hlinks => exact ih hprobe' hlinks hrest
      | cons_cons _ hlinks =>
          apply eq_nil_of_joinSheets_unmarked hprobe' ⟨m, List.singleton_sublist.1 hlinks, hm⟩ _ hrest
          intro row hrow
          obtain ⟨l, -, -, rfl⟩ := hnext row hrow
          exact Link.get?_merge_probe hn.fits.nodup hk (.inl hmem)

end Tabular

namespace Chain

theorem inProbe {c : Chain} {column : String} {b : Book} (h : c.InBook (c.probe column) b) :
    ∀ k ∈ c.links, k.InProbe b column c.header := by
  intro k hk
  have hload := Book.load_of_read (h.link k hk) (c.fits k hk).nodup
  rw [probe_link hk] at hload
  exact ⟨c.fits k hk, hload⟩

theorem rows_probe_ne_nil (c : Chain) (column : String) : c.rows (c.probe column) ≠ [] := by
  rw [rows, probe_base]
  apply linkRows_probe_ne_nil c.fits fun k hk => probe_link hk column
  exact ⟨_, List.mem_singleton.2 rfl, fun other hother => getElem?_idxOf_map hother _⟩

/-- If the engines give the same rows whatever the tables hold, no join changes what a later one
reads. -/
theorem keeps_of_sameRows {c : Chain} {catalog engine : String}
    (h : ∀ contents d b, c.HeldAlike contents d b → SameRows catalog d b (c.request engine)) :
    c.links.Pairwise Link.Keeps := by
  apply List.pairwise_of_forall_sublist
  intro k m hlinks hmem
  by_contra hk
  have hheld : c.HeldAlike _ _ _ :=
    heldAlike_probe (List.ne_nil_of_mem (hlinks.subset List.mem_cons_self)) m.left
  obtain ⟨stmt, plan, answer, rows, hstmt, hplan, hanswer, hrows, hperm⟩ := h _ _ _ hheld
  cases Relational.eq_plan_of_request hstmt hplan
  have hanswer' := (Relational.evaluate_plan hheld.full hheld.inDatabase catalog).symm.trans hanswer
  cases hanswer'
  have hnil : rows = [] := by
    rw [Tabular.rows_request hheld.inBook] at hrows
    exact Tabular.eq_nil_of_joinSheets_overwritten (inProbe hheld.inBook) hlinks hmem hk rfl hrows
  rw [hnil, List.perm_nil, List.map_eq_nil_iff] at hperm
  exact c.rows_probe_ne_nil m.left hperm

/-- The engines give the rows of a chain alike, whatever its tables hold, exactly when no join
changes a column of the base table that a later one reads. -/
theorem sameRows_iff_keeps (c : Chain) (catalog engine : String) :
    (∀ contents d b, c.HeldAlike contents d b → SameRows catalog d b (c.request engine)) ↔
      c.links.Pairwise Link.Keeps :=
  ⟨keeps_of_sameRows, fun hkeeps _ _ _ h => sameRows_of_keeps hkeeps h catalog engine⟩

/-- A chain on two columns, of which the first is in the joined tables too. -/
def keyChain : Chain where
  base := "orders"
  header := ["id", "note"]
  links := [⟨"people", ["id", "label"], "id", "id"⟩, ⟨"tags", ["id", "note"], "note", "note"⟩,
    ⟨"notes", ["note", "label"], "note", "note"⟩]
  base_named := by decide
  columns_named := by decide
  columns_distinct := by decide
  fits := by decide
  names_distinct := by decide

def keyContents : Contents := fun name =>
  if name = "orders" then [["1", "a"], ["2", "a"], ["3", "b"]]
  else if name = "people" then [["1", "x"], ["2", "y"]]
  else if name = "tags" then [["7", "a"]]
  else [["a", "z"], ["a", "w"], ["b", "z"]]

/-- Here no column that is read again has changed. -/
theorem keyChain_sameRows : keyChain.links.Pairwise Link.Keeps ∧
    SameRows "memory" (keyChain.database keyContents) (keyChain.book keyContents)
      (keyChain.request "tabular") := by
  have hkeeps : keyChain.links.Pairwise Link.Keeps := by decide
  have hheld : keyChain.HeldAlike keyContents (keyChain.database keyContents)
      (keyChain.book keyContents) :=
    heldAlike_stores (by decide) (by decide) (by decide)
  exact ⟨hkeeps, (sameRows_iff_keeps keyChain "memory" "tabular").2 hkeeps _ _ _ hheld⟩

/-- A chain whose first join changes the column that the second one reads. -/
def noteChain : Chain where
  base := "orders"
  header := ["id", "note"]
  links := [⟨"people", ["id", "note"], "id", "id"⟩, ⟨"tags", ["note", "label"], "note", "note"⟩]
  base_named := by decide
  columns_named := by decide
  columns_distinct := by decide
  fits := by decide
  names_distinct := by decide

def noteContents : Contents := fun name =>
  if name = "orders" then [["1", "a"]]
  else if name = "people" then [["1", "b"]]
  else [["a", "x"]]

/-- A join on a column whose name has two parts, with the tables of both stores. -/
def dottedRequest : Request where
  engine := "tabular"
  table := "orders"
  joins := [⟨"tags", "a.b", "a.b"⟩]

def dottedDatabase : Database where
  tables := [TableData.ofTexts "orders" ⟨["a.b"], [["1"]]⟩,
    TableData.ofTexts "tags" ⟨["a.b"], [["1"]]⟩]

def dottedBook : Book :=
  [("orders", [[.text "a.b"], [.text "1"]]), ("tags", [[.text "a.b"], [.text "1"]])]

/-- A database reads the note of the order and a book that of the person, which no tag has. And a
name of two parts is a column of a sheet, but no column of a table. -/
theorem not_sameRows_noteChain :
    (noteChain.HeldAlike noteContents (noteChain.database noteContents)
        (noteChain.book noteContents) ∧
      ¬SameRows "memory" (noteChain.database noteContents) (noteChain.book noteContents)
        (noteChain.request "tabular")) ∧
    ¬SameRows "memory" dottedDatabase dottedBook dottedRequest := by
  have hheld : noteChain.HeldAlike noteContents (noteChain.database noteContents)
      (noteChain.book noteContents) :=
    heldAlike_stores (by decide) (by decide) (by decide)
  refine ⟨⟨hheld, ?_⟩, ?_⟩
  · rintro ⟨stmt, plan, answer, rows, hstmt, hplan, hanswer, hrows, hperm⟩
    cases Relational.eq_plan_of_request hstmt hplan
    have hanswer' :=
      (Relational.evaluate_plan hheld.full hheld.inDatabase "memory").symm.trans hanswer
    cases hanswer'
    have hnone : Tabular.rows none (noteChain.book noteContents) (noteChain.request "tabular") =
        .ok [] := rfl
    cases hnone.symm.trans hrows
    exact absurd hperm.length_eq (by decide)
  · rintro ⟨stmt, plan, answer, rows, hstmt, hplan, hanswer, -⟩
    cases hstmt
    cases hplan
    cases hanswer

end Chain

end TableQuery
