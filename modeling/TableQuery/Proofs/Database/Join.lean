import Mathlib.Order.Compare
import TableQuery.Proofs.Database.Binding

/-!
# The rows of a chain of joins

On tables of texts an evaluated chain of joins has one row for every way to put beside a row of
the base table a row of each joined table that has the text of the base row in its column.
-/

namespace TableQuery

open TableQuery.Text

namespace ColumnType

theorem toList_loop (bs : ByteArray) (i : Nat) (read : List UInt8) :
    ByteArray.toList.loop bs i read = read.reverse ++ bs.data.toList.drop i := by
  have hsize : bs.data.toList.length = bs.size := Array.length_toList
  induction h : bs.size - i generalizing i read with
  | zero =>
      rw [ByteArray.toList.loop, if_neg (by omega), List.drop_eq_nil_of_le (by omega),
        List.append_nil]
  | succ n ih =>
      have hi : i < bs.data.toList.length := by omega
      have hget : bs.get! i = bs.data.toList[i] := by
        rw [Array.getElem_toList]
        exact getElem!_pos bs.data i _
      rw [ByteArray.toList.loop, if_pos (by omega), ih (i + 1) _ (by omega), List.reverse_cons,
        List.append_assoc, List.drop_eq_getElem_cons hi, hget]
      rfl

theorem bytesOf_injective : Function.Injective bytesOf := by
  intro a b h
  have htoNat : Function.Injective UInt8.toNat := fun x y => UInt8.toNat_inj.1
  have hbytes := htoNat.list_map h
  rw [ByteArray.toList, ByteArray.toList, toList_loop, toList_loop, List.drop_zero, List.drop_zero]
    at hbytes
  exact String.toByteArray_inj.1 (ByteArray.ext (Array.toList_inj.1 hbytes))

theorem compareValues_text (a b : String) :
    (compareValues (.text a) (.text b) == .eq) = decide (a = b) := by
  rw [compareValues, Bool.eq_iff_iff, beq_iff_eq, Std.compare_eq_iff_eq, decide_eq_true_iff]
  exact bytesOf_injective.eq_iff

end ColumnType

namespace Evaluate

theorem equalValues_text (a b : String) :
    equalValues .varchar .varchar (.text a) (.text b) = .ok (decide (a = b)) := by
  rw [← ColumnType.compareValues_text]
  rfl

theorem foldlM_right {holds : List Datum → Except DatabaseError Bool} {p : List String → Bool}
    {l : List Datum} {others : List (List String)}
    (h : ∀ r ∈ others, holds (l ++ r.map .text) = .ok (p r)) (acc : List (List Datum)) :
    (others.map (List.map Datum.text)).foldlM (fun acc r =>
        (holds (l ++ r)).map fun ok => if ok then (l ++ r) :: acc else acc) acc =
      .ok (((others.filter p).map fun r => l ++ r.map .text).reverse ++ acc) := by
  induction others generalizing acc with
  | nil => rfl
  | cons r others ih =>
      rw [List.map_cons, List.foldlM_cons, h r List.mem_cons_self]
      have hrest := ih fun s hs => h s (List.mem_cons_of_mem r hs)
      cases hp : p r with
      | true =>
          rw [List.filter_cons_of_pos hp, List.map_cons, List.reverse_cons, List.append_assoc]
          exact hrest _
      | false =>
          rw [List.filter_cons_of_neg (by simp [hp])]
          exact hrest _

/-- Pairing up rows of texts keeps the pairs that satisfy the condition, left order first. -/
theorem pairs_texts {holds : List Datum → Except DatabaseError Bool}
    {p : List String → List String → Bool} {rows others : List (List String)}
    (h : ∀ l ∈ rows, ∀ r ∈ others, holds (l.map .text ++ r.map .text) = .ok (p l r)) :
    pairs holds (rows.map (List.map .text)) (others.map (List.map .text)) =
      .ok ((rows.flatMap fun l => (others.filter (p l)).map fun r => l ++ r).map
        (List.map .text)) := by
  have hfold : ∀ acc : List (List Datum),
      (rows.map (List.map Datum.text)).foldlM (fun acc l =>
        (others.map (List.map Datum.text)).foldlM (fun acc r =>
          (holds (l ++ r)).map fun ok => if ok then (l ++ r) :: acc else acc) acc) acc =
      .ok (((rows.flatMap fun l => (others.filter (p l)).map fun r => l ++ r).map
        (List.map .text)).reverse ++ acc) := by
    induction rows with
    | nil => exact fun acc => rfl
    | cons l rows ih =>
        intro acc
        rw [List.map_cons, List.foldlM_cons, foldlM_right (h l List.mem_cons_self)]
        have hrest := ih fun m hm => h m (List.mem_cons_of_mem l hm)
        simp only [bind, Except.bind, hrest]
        simp [Function.comp_def]
  rw [pairs, hfold, List.append_nil]
  simp [Except.map]

theorem valueAt_left {l : List String} {i : Nat} (hi : i < l.length) (data : List Datum) :
    valueAt (l.map .text ++ data) i = .text l[i] := by
  rw [valueAt, List.getD_eq_getElem?_getD, List.getElem?_append_left (by simpa using hi)]
  simp [hi]

theorem valueAt_right {l r : List String} {width j : Nat} (hl : l.length = width)
    (hj : j < r.length) : valueAt (l.map .text ++ r.map .text) (width + j) = .text r[j] := by
  rw [valueAt, List.getD_eq_getElem?_getD, List.getElem?_append_right (by simp [hl])]
  simp [hl, hj]

theorem typeAt_eq {scope : List ScopeColumn} (h : ∀ c ∈ scope, c.type = .varchar) (i : Nat) :
    (scope[i]?.map ScopeColumn.type).getD .varchar = .varchar := by
  cases hi : scope[i]? with
  | none => rfl
  | some c => exact h c (List.mem_of_getElem? hi)

/-- The bound joins of a chain give its rows. -/
theorem joinRows_boundLinks {scope : List ScopeColumn} (hscope : ∀ c ∈ scope, c.type = .varchar)
    {contents : Contents} {header : List String} {links : List Link}
    (hfits : ∀ k ∈ links, k.Fits header)
    (hfull : ∀ k ∈ links, ∀ row ∈ contents k.name, row.length = k.header.length) {width : Nat}
    (hwidth : header.length ≤ width) {rows : List (List String)}
    (hrows : ∀ l ∈ rows, l.length = width) :
    joinRows scope (rows.map (List.map .text)) (boundLinks contents header width links) =
      .ok ((linkRows contents header rows links).map (List.map .text)) := by
  induction links generalizing width rows with
  | nil => rfl
  | cons k links ih =>
      obtain ⟨-, -, -, hleft, hright⟩ := hfits k List.mem_cons_self
      have hothers := hfull k List.mem_cons_self
      have hpairs : pairs (fun row => equalValues
            ((scope[header.idxOf k.left]?.map ScopeColumn.type).getD .varchar)
            ((scope[width + k.header.idxOf k.right]?.map ScopeColumn.type).getD .varchar)
            (valueAt row (header.idxOf k.left))
            (valueAt row (width + k.header.idxOf k.right)))
          (rows.map (List.map .text)) (TableData.ofTexts k.name ⟨k.header, contents k.name⟩).rows =
          .ok ((matchTexts (header.idxOf k.left) (k.header.idxOf k.right) rows
            (contents k.name)).map (List.map .text)) := by
        apply pairs_texts
        intro l hl r hr
        have hi : header.idxOf k.left < l.length := by
          rw [hrows l hl]
          exact Nat.lt_of_lt_of_le (List.idxOf_lt_length_of_mem hleft) hwidth
        have hj : k.header.idxOf k.right < r.length := by
          rw [hothers r hr]
          exact List.idxOf_lt_length_of_mem hright
        rw [typeAt_eq hscope, typeAt_eq hscope, valueAt_left hi, valueAt_right (hrows l hl) hj,
          equalValues_text, List.getElem?_eq_getElem hi, List.getElem?_eq_getElem hj]
        simp
      have hmatched : ∀ l ∈ matchTexts (header.idxOf k.left) (k.header.idxOf k.right) rows
          (contents k.name), l.length = width + k.header.length :=
        length_of_mem_matchTexts hrows hothers
      have hrest := ih (fun m hm => hfits m (List.mem_cons_of_mem k hm))
        (fun m hm => hfull m (List.mem_cons_of_mem k hm))
        (Nat.le_trans hwidth (Nat.le_add_right width k.header.length)) hmatched
      rw [boundLinks, joinRows, hpairs, linkRows]
      exact hrest

theorem map_valueAt_range (row : List Datum) :
    (List.range row.length).map (valueAt row) = row := by
  apply List.ext_getElem
  · simp
  · intro i _ hi
    rw [List.getElem_map, List.getElem_range, valueAt, List.getD_eq_getElem?_getD,
      List.getElem?_eq_getElem hi, Option.getD_some]

theorem map_name_range (scope : List ScopeColumn) :
    (List.range scope.length).map (fun i => (scope[i]?.map ScopeColumn.name).getD "") =
      scope.map ScopeColumn.name := by
  apply List.ext_getElem
  · simp
  · intro i _ hi
    have hlength : i < scope.length := by simpa using hi
    simp [hlength]

/-- The plan of joins without any other clause. -/
def joinPlan (table : Name) (joins : List PlanJoin) : Plan where
  items := [.all]
  table := table
  joins := joins
  condition := none
  order := none
  limit := none
  offset := none

/-- Such a plan gives all columns in scope and all rows of its joins. -/
theorem run_joinPlan {catalog : String} {d : Database} {table : Name} {joins : List PlanJoin}
    {t : TableData} {scope : List ScopeColumn} {bound : List (TableData × Nat × Nat)}
    {rows : List (List Datum)} (htable : findTable catalog d table = .ok t)
    (hbind : bindJoins catalog d (scopeOf catalog t) joins = .ok (scope, bound))
    (hjoin : joinRows scope t.rows bound = .ok rows)
    (hlength : ∀ row ∈ rows, row.length = scope.length) :
    run catalog d (joinPlan table joins) =
      .ok { columns := scope.map ScopeColumn.name, rows := rows } := by
  have hitems : [PlanItem.all].mapM (itemPositions scope) = .ok [List.range scope.length] := by
    rw [List.mapM_cons, List.mapM_nil]
    rfl
  have hrows : rows.map (fun row => (List.range scope.length).map (valueAt row)) = rows := by
    conv => rhs; rw [← List.map_id rows]
    apply List.map_congr_left
    intro row hrow
    rw [← hlength row hrow]
    exact map_valueAt_range row
  simp only [run, joinPlan, bind, Except.bind, pure, Except.pure, htable, hbind, hjoin, hitems,
    page, Option.getD_none, List.drop_zero, List.flatten_cons, List.flatten_nil, List.append_nil,
    map_name_range, hrows]

theorem names_textScope (catalog : String) (tables : List (String × List String)) :
    (textScope catalog tables).map ScopeColumn.name = tables.flatMap Prod.snd := by
  rw [textScope, List.map_flatMap]
  simp [Function.comp_def]

end Evaluate

namespace Chain

/-- The database holds the tables of a chain with their contents. -/
def InDatabase (c : Chain) (contents : Contents) (d : Database) : Prop :=
  ∀ table ∈ c.tables, d.table? table.1 =
    some (TableData.ofTexts table.1 ⟨table.2, contents table.1⟩)

/-- The plan of a chain. -/
def plan (c : Chain) : Plan :=
  Evaluate.joinPlan [c.base] (c.links.map (Link.planJoin c.base))

/-- A chain has an answer: the columns of the tables side by side, and the rows of the chain. -/
theorem run_plan {c : Chain} {contents : Contents} {d : Database} (hfull : c.Full contents)
    (h : c.InDatabase contents d) (catalog : String) :
    Evaluate.run catalog d c.plan =
      .ok { columns := c.columns, rows := (c.rows contents).map (List.map .text) } := by
  have hcolumns : (Evaluate.textScope catalog c.tables).map ScopeColumn.name = c.columns := by
    rw [Evaluate.names_textScope, tables, List.flatMap_cons, List.flatMap_map]
    rfl
  have hwidth : (Evaluate.textScope catalog [(c.base, c.header)]).length = c.header.length := by
    simp [Evaluate.textScope]
  have hlinks : ∀ k ∈ c.links, d.table? k.name =
      some (TableData.ofTexts k.name ⟨k.header, contents k.name⟩) := fun k hk =>
    h k.named (List.mem_cons_of_mem _ (List.mem_map_of_mem hk))
  rw [← hcolumns]
  apply Evaluate.run_joinPlan (Evaluate.findTable_of_table? (h _ List.mem_cons_self) catalog)
  · rw [Evaluate.scopeOf_ofTexts]
    exact Evaluate.bindJoins_links [] c.columns_distinct c.fits hlinks c.names_distinct
  · rw [hwidth]
    exact Evaluate.joinRows_boundLinks (fun column hcolumn => Evaluate.type_of_mem_textScope hcolumn)
      c.fits hfull.link (Nat.le_refl _) hfull.base
  · intro row hrow
    obtain ⟨l, hl, rfl⟩ := List.mem_map.1 hrow
    rw [List.length_map, length_of_mem_rows hfull l hl, ← hcolumns, List.length_map]

end Chain

end TableQuery
