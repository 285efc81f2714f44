import TableQuery.Proofs.Links
import TableQuery.Proofs.Sheet.Loading
import TableQuery.Tabular

/-!
# Joining sheets of a book

A merged row holds the text of the row joined last under each column. The sheets of a chain of
joins give the rows of the chain as long as no join changes a column of the base table that a
later one reads.
-/

namespace TableQuery

namespace Rows

theorem matching_text {leftColumn rightColumn a b : String} {l r : Row}
    (hl : l.get? leftColumn = some (.text a)) (hr : r.get? rightColumn = some (.text b)) :
    matching leftColumn rightColumn l r = decide (a = b) := by
  rw [matching_of_get? hl, hasKey, hr]
  simp [Value.isNull, Value.same, Bool.beq_eq_decide_eq, eq_comm]

/-- Rows of texts are joined where the texts that they have under the two columns agree. -/
theorem nestedLoop_rowOf {columns header : List String} {rows others : List (List String)}
    {leftColumn rightColumn : String} {i j : Nat} (hcolumns : ∀ l ∈ rows, l.length = columns.length)
    (hleft : ∀ l ∈ rows, ∃ a, l[i]? = some a ∧
      (TextTable.rowOf columns l).get? leftColumn = some (.text a))
    (hright : ∀ r ∈ others, ∃ b, r[j]? = some b ∧
      (TextTable.rowOf header r).get? rightColumn = some (.text b)) :
    nestedLoop (rows.map (TextTable.rowOf columns)) (others.map (TextTable.rowOf header)) leftColumn
        rightColumn =
      (matchTexts i j rows others).map (TextTable.rowOf (columns ++ header)) := by
  rw [nestedLoop, matchTexts, List.flatMap_map, List.map_flatMap]
  apply List.flatMap_congr
  intro l hl
  obtain ⟨a, ha, hgeta⟩ := hleft l hl
  have hfilter : others.filter (matching leftColumn rightColumn (TextTable.rowOf columns l) ∘
      TextTable.rowOf header) = others.filter fun r => decide (l[i]? = r[j]?) := by
    apply List.filter_congr
    intro r hr
    obtain ⟨b, hb, hgetb⟩ := hright r hr
    rw [Function.comp_apply, matching_text hgeta hgetb, ha, hb]
    simp
  rw [List.filter_map, hfilter, List.map_map, List.map_map]
  apply List.map_congr_left
  intro r _
  exact (TextTable.rowOf_append (hcolumns l hl)).symm

theorem join_rowOf {columns header : List String} {rows others : List (List String)}
    {leftColumn rightColumn : String} {i : Nat} (hcolumns : ∀ l ∈ rows, l.length = columns.length)
    (hheader : header.Nodup) (hothers : ∀ r ∈ others, r.length = header.length)
    (hi : i < columns.length) (hright : rightColumn ∈ header)
    (hleft : ∀ l ∈ rows, (TextTable.rowOf columns l).get? leftColumn = (l[i]?).map Value.text) :
    join (rows.map (TextTable.rowOf columns)) (others.map (TextTable.rowOf header)) leftColumn
        rightColumn =
      .ok ((matchTexts i (header.idxOf rightColumn) rows others).map
        (TextTable.rowOf (columns ++ header))) := by
  have hgetLeft : ∀ l ∈ rows, ∃ a, l[i]? = some a ∧
      (TextTable.rowOf columns l).get? leftColumn = some (.text a) := by
    intro l hl
    have hget := List.getElem?_eq_getElem (hcolumns l hl ▸ hi)
    exact ⟨_, hget, by rw [hleft l hl, hget]; rfl⟩
  have hgetRight : ∀ r ∈ others, ∃ b, r[header.idxOf rightColumn]? = some b ∧
      (TextTable.rowOf header r).get? rightColumn = some (.text b) := by
    intro r hr
    have hget := List.getElem?_eq_getElem (hothers r hr ▸ List.idxOf_lt_length_of_mem hright)
    exact ⟨_, hget, by rw [TextTable.get?_rowOf hheader (hothers r hr), hget]; rfl⟩
  rw [← nestedLoop_rowOf hcolumns hgetLeft hgetRight]
  apply join_of_found
  · intro row hrow
    obtain ⟨l, hl, rfl⟩ := List.mem_map.1 hrow
    obtain ⟨a, -, ha⟩ := hgetLeft l hl
    simp [ha]
  · intro row hrow
    obtain ⟨r, hr, rfl⟩ := List.mem_map.1 hrow
    obtain ⟨b, -, hb⟩ := hgetRight r hr
    simp [hb]

end Rows

theorem Link.Fits.nodup {header : List String} {k : Link} (h : k.Fits header) : k.header.Nodup :=
  h.columns_distinct.of_map

/-- A column that a join leaves as it is in the base table keeps its text in the joined rows. -/
theorem Link.Keeps.get?_rowOf {k m : Link} (h : k.Keeps m) {header columns : List String}
    {rows others : List (List String)} (hdistinct : k.header.Nodup)
    (hothers : ∀ row ∈ others, row.length = k.header.length)
    (hcolumns : ∀ l ∈ rows, l.length = columns.length)
    (hm : header.idxOf m.left < columns.length)
    (hrows : ∀ l ∈ rows, (TextTable.rowOf columns l).get? m.left =
      (l[header.idxOf m.left]?).map Value.text) :
    ∀ row ∈ matchTexts (header.idxOf k.left) (k.header.idxOf k.right) rows others,
      (TextTable.rowOf (columns ++ k.header) row).get? m.left =
        (row[header.idxOf m.left]?).map Value.text := by
  intro row hrow
  obtain ⟨l, hl, r, hr, heq, rfl⟩ := mem_matchTexts.1 hrow
  have hlength : header.idxOf m.left < l.length := by
    rw [hcolumns l hl]
    exact hm
  rw [TextTable.rowOf_append (hcolumns l hl), Row.get?_merge,
    TextTable.get?_rowOf hdistinct (hothers r hr), hrows l hl, List.getElem?_append_left hlength]
  by_cases hmem : m.left ∈ k.header
  · obtain ⟨hleft, hright⟩ := h hmem
    rw [hleft, hright] at heq
    rw [← heq, Option.or_self]
  · have hnone : r[k.header.idxOf m.left]? = none := by
      rw [List.getElem?_eq_none_iff, hothers r hr, List.idxOf_eq_length hmem]
    rw [hnone]
    rfl

/-- The sheets of joins of which none changes what a later one reads give the rows of the
joins. -/
theorem Tabular.joinSheets_links {b : Book} {contents : Contents} {header columns : List String}
    {links : List Link} (hfits : ∀ k ∈ links, k.Fits header)
    (hsheets : ∀ k ∈ links, b.read k.name = .ok ⟨k.header, contents k.name⟩)
    (hfull : ∀ k ∈ links, ∀ row ∈ contents k.name, row.length = k.header.length)
    (hkeeps : links.Pairwise Link.Keeps) (hwidth : header.length ≤ columns.length)
    {rows : List (List String)} (hcolumns : ∀ l ∈ rows, l.length = columns.length)
    (hrows : ∀ k ∈ links, ∀ l ∈ rows, (TextTable.rowOf columns l).get? k.left =
      (l[header.idxOf k.left]?).map Value.text) :
    joinSheets b (rows.map (TextTable.rowOf columns)) (links.map Link.spec) =
      .ok ((linkRows contents header rows links).map
        (TextTable.rowOf (columns ++ links.flatMap Link.header))) := by
  induction links generalizing columns rows with
  | nil => simp [linkRows]
  | cons k links ih =>
      have hk := hfits k List.mem_cons_self
      have hothers := hfull k List.mem_cons_self
      rw [List.pairwise_cons] at hkeeps
      have hi : ∀ m ∈ k :: links, header.idxOf m.left < columns.length := fun m hm =>
        Nat.lt_of_lt_of_le (List.idxOf_lt_length_of_mem (hfits m hm).left_mem) hwidth
      have hload := Book.load_of_read (hsheets k List.mem_cons_self) hk.nodup
      have hjoin := Rows.join_rowOf hcolumns hk.nodup hothers (hi k List.mem_cons_self) hk.right_mem
        (hrows k List.mem_cons_self)
      have hmatched : ∀ l ∈ matchTexts (header.idxOf k.left) (k.header.idxOf k.right) rows
          (contents k.name), l.length = (columns ++ k.header).length := by
        rw [List.length_append]
        exact length_of_mem_matchTexts hcolumns hothers
      have hread : ∀ m ∈ links, ∀ row ∈ matchTexts (header.idxOf k.left) (k.header.idxOf k.right)
          rows (contents k.name), (TextTable.rowOf (columns ++ k.header) row).get? m.left =
            (row[header.idxOf m.left]?).map Value.text := fun m hm =>
        (hkeeps.1 m hm).get?_rowOf hk.nodup hothers hcolumns (hi m (List.mem_cons_of_mem k hm))
          (hrows m (List.mem_cons_of_mem k hm))
      have hrest := ih (fun m hm => hfits m (List.mem_cons_of_mem k hm))
        (fun m hm => hsheets m (List.mem_cons_of_mem k hm))
        (fun m hm => hfull m (List.mem_cons_of_mem k hm)) hkeeps.2
        (Nat.le_trans hwidth (by simp)) hmatched hread
      rw [List.map_cons, joinSheets]
      simp only [Link.spec, hload, hjoin]
      rw [linkRows, List.flatMap_cons, ← List.append_assoc]
      exact hrest

namespace Chain

/-- The book holds the tables of a chain with their contents. -/
def InBook (c : Chain) (contents : Contents) (b : Book) : Prop :=
  ∀ table ∈ c.tables, b.read table.1 = .ok ⟨table.2, contents table.1⟩

theorem InBook.load_base {c : Chain} {contents : Contents} {b : Book} (h : c.InBook contents b) :
    b.load c.base = .ok ((contents c.base).map (TextTable.rowOf c.header)) :=
  Book.load_of_read (h (c.base, c.header) List.mem_cons_self) c.columns_distinct.of_map

theorem InBook.link {c : Chain} {contents : Contents} {b : Book} (h : c.InBook contents b) :
    ∀ k ∈ c.links, b.read k.name = .ok ⟨k.header, contents k.name⟩ :=
  fun k hk => h k.named (List.mem_cons_of_mem _ (List.mem_map_of_mem hk))

/-- The sheets of a chain in which no join changes what a later one reads give its rows. -/
theorem joinSheets_rows {c : Chain} {contents : Contents} {b : Book} (hfull : c.Full contents)
    (h : c.InBook contents b) (hkeeps : c.links.Pairwise Link.Keeps) :
    Tabular.joinSheets b ((contents c.base).map (TextTable.rowOf c.header))
        (c.links.map Link.spec) =
      .ok ((c.rows contents).map (TextTable.rowOf c.columns)) :=
  Tabular.joinSheets_links c.fits h.link hfull.link hkeeps (Nat.le_refl _) hfull.base
    fun k _ l hl => TextTable.get?_rowOf c.columns_distinct.of_map (hfull.base l hl) k.left

end Chain

end TableQuery
