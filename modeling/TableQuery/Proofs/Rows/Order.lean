import TableQuery.Proofs.Reading
import TableQuery.Proofs.Sorting.Stable
import TableQuery.Proofs.Value.Order
import TableQuery.Rows.Order

/-!
# Ordering rows is stable sorting

The keys of the rows are read once and then sorted by. When they are homogeneous the
order of values is a total preorder on them, so either way of sorting returns the rows
with their keys in order, and rows with level keys as they stood before.
-/

namespace TableQuery.Rows

open scoped List

open TableQuery.Sorting

/-- The sort key of a row in a column, missing where none can be read. -/
def keyOf (column : String) (row : Row) : Value :=
  match Value.cellKey (row.get? column) with
  | .ok key => key
  | .error _ => .null

/-- Every row has a sort key in a column. -/
def HasKeys (column : String) (rows : List Row) : Prop :=
  ∀ row ∈ rows, ∃ key, Value.cellKey (row.get? column) = .ok key

theorem HasKeys.mono {column : String} {rows others : List Row} (h : HasKeys column rows)
    (hsub : others ⊆ rows) : HasKeys column others :=
  fun row hrow => h row (hsub hrow)

/-- A row with its sort key. -/
def withKey (column : String) (row : Row) : Value × Row :=
  (keyOf column row, row)

/-- The key of the first row is below the key of the second. -/
def rowBelow (column : String) (a b : Row) : Bool :=
  (keyOf column a).compare (keyOf column b) == .lt

/-- The rows of `sorted` are those of `rows` with their keys in order, ascending or
descending, and rows with level keys follow each other as before. -/
structure IsSortedBy (key : Row → Value) (descending : Bool) (rows sorted : List Row) : Prop where
  perm : sorted ~ rows
  inOrder : sorted.Pairwise fun a b =>
    if descending then ((key a).compare (key b)).isGE = true
    else ((key a).compare (key b)).isLE = true
  stable : ∀ row ∈ rows, sorted.filter (fun r => (key row).compare (key r) == .eq) =
    rows.filter fun r => (key row).compare (key r) == .eq

theorem keyed_eq {column : String} {rows : List Row} (h : HasKeys column rows) :
    keyed column rows = .ok (rows.map (withKey column)) := by
  induction rows with
  | nil => rfl
  | cons row rows ih =>
      obtain ⟨key, hkey⟩ := h row (by simp)
      have hrest := ih fun r hr => h r (by simp [hr])
      simp [keyed, hkey, hrest, withKey, keyOf, Except.map]

theorem map_snd_of_keyed {column : String} {rows : List Row} {pairs : List (Value × Row)}
    (h : keyed column rows = .ok pairs) : pairs.map Prod.snd = rows := by
  induction rows generalizing pairs with
  | nil =>
      cases h
      rfl
  | cons row rows ih =>
      rw [keyed] at h
      cases hkey : Value.cellKey (row.get? column) with
      | error e =>
          rw [hkey] at h
          cases h
      | ok key =>
          rw [hkey] at h
          obtain ⟨rest, hrest, rfl⟩ := map_eq_ok_iff.1 h
          rw [List.map_cons, ih hrest]

/-- Ordered rows are the rows that were there, whatever their keys are. -/
theorem order_perm {rows sorted : List Row} {text : Option String}
    (h : order rows text = .ok sorted) : sorted ~ rows := by
  rw [order] at h
  cases ho : SortOrder.parse? text with
  | none =>
      rw [ho] at h
      cases h
      exact List.Perm.refl rows
  | some o =>
      rw [ho] at h
      obtain ⟨pairs, hpairs, rfl⟩ := map_eq_ok_iff.1 h
      have hsort : (if o.descending then descending keyBelow pairs
          else ascending keyBelow pairs) ~ pairs := by
        split
        · exact descending_perm keyBelow pairs
        · exact ascending_perm keyBelow pairs
      rw [← map_snd_of_keyed hpairs]
      exact hsort.map Prod.snd

theorem keyBelow_asymmetric : Asymmetric keyBelow := by
  intro a b hab
  rw [keyBelow, beq_iff_eq] at hab
  rw [keyBelow, ← Value.compare_swap, hab]
  rfl

theorem rowBelow_asymmetric (column : String) : Asymmetric (rowBelow column) := fun a b =>
  keyBelow_asymmetric (withKey column a) (withKey column b)

theorem inOrder_rowBelow_iff {column : String} {a b : Row} :
    InOrder (rowBelow column) a b ↔ ((keyOf column a).compare (keyOf column b)).isLE = true := by
  rw [InOrder, rowBelow, ← Value.compare_swap]
  cases (keyOf column a).compare (keyOf column b) <;> simp

theorem level_rowBelow (column : String) (a : Row) :
    level (rowBelow column) a = fun b => (keyOf column a).compare (keyOf column b) == .eq := by
  funext b
  rw [level, rowBelow, rowBelow, ← Value.compare_swap (keyOf column a)]
  cases (keyOf column a).compare (keyOf column b) <;> rfl

theorem rowBelow_consistent {column : String} {rows : List Row}
    (h : Value.Homogeneous (rows.map (keyOf column))) : Consistent (rowBelow column) rows := by
  intro a ha b hb c hc hab hbc
  rw [inOrder_rowBelow_iff] at hab hbc ⊢
  exact h.isLE_trans (List.mem_map_of_mem ha) (List.mem_map_of_mem hb) (List.mem_map_of_mem hc)
    hab hbc

theorem keyBelow_consistent {column : String} {rows : List Row}
    (h : Value.Homogeneous (rows.map (keyOf column))) :
    Consistent keyBelow (rows.map (withKey column)) :=
  Consistent.map (f := withKey column) (rowBelow_consistent h)

theorem stable_of_filter_level {column : String} {rows sorted : List Row}
    (h : Value.Homogeneous (rows.map (keyOf column)))
    (hstable : ∀ row, Consistent (rowBelow column) (row :: rows) →
      sorted.filter (level (rowBelow column) row) = rows.filter (level (rowBelow column) row)) :
    ∀ row ∈ rows,
      sorted.filter (fun r => (keyOf column row).compare (keyOf column r) == .eq) =
        rows.filter fun r => (keyOf column row).compare (keyOf column r) == .eq := by
  intro row hrow
  have hcons := (rowBelow_consistent h).mono (List.cons_subset.2 ⟨hrow, List.Subset.refl rows⟩)
  simpa only [level_rowBelow] using hstable row hcons

theorem isStableSort_ascending {column : String} {rows : List Row}
    (h : Value.Homogeneous (rows.map (keyOf column))) :
    IsStableSort (rowBelow column) rows
      ((ascending keyBelow (rows.map (withKey column))).map Prod.snd) :=
  (ascending_isStableSort keyBelow_asymmetric (keyBelow_consistent h)).of_map
    (f := withKey column) fun _ => rfl

theorem isStableSort_descending {column : String} {rows : List Row}
    (h : Value.Homogeneous (rows.map (keyOf column))) :
    IsStableSort (fun a b => rowBelow column b a) rows
      ((descending keyBelow (rows.map (withKey column))).map Prod.snd) :=
  (descending_isStableSort keyBelow_asymmetric (keyBelow_consistent h)).of_map
    (f := withKey column) fun _ => rfl

theorem ascending_isSortedBy {column : String} {rows : List Row}
    (h : Value.Homogeneous (rows.map (keyOf column))) :
    IsSortedBy (keyOf column) false rows
      ((ascending keyBelow (rows.map (withKey column))).map Prod.snd) := by
  have hsort := isStableSort_ascending h
  refine ⟨hsort.perm, ?_, stable_of_filter_level h hsort.stable⟩
  exact hsort.inOrder.imp fun {a b} hab => inOrder_rowBelow_iff.1 hab

theorem descending_isSortedBy {column : String} {rows : List Row}
    (h : Value.Homogeneous (rows.map (keyOf column))) :
    IsSortedBy (keyOf column) true rows
      ((descending keyBelow (rows.map (withKey column))).map Prod.snd) := by
  have hsort := isStableSort_descending h
  refine ⟨hsort.perm, ?_, stable_of_filter_level h fun row hrow => ?_⟩
  · refine hsort.inOrder.imp fun {a b} hab => ?_
    have hle : ((keyOf column b).compare (keyOf column a)).isLE = true :=
      inOrder_rowBelow_iff.1 hab
    rw [← Value.compare_swap, Ordering.isLE_swap] at hle
    exact hle
  · rw [← level_flip (rowBelow column)]
    exact hsort.stable row hrow.flip

/-- Rows are sorted stably by the keys of the column that an order text names, in the
direction that it names. It is assumed that all keys can be read and are homogeneous, and
shown that the order of values is then a total preorder on them. -/
theorem order_isSortedBy {rows : List Row} {text : String} {o : SortOrder}
    (ho : SortOrder.ofText? text = some o) (hkeys : HasKeys o.column rows)
    (h : Value.Homogeneous (rows.map (keyOf o.column))) :
    Value.IsTotalPreorder (rows.map (keyOf o.column)) ∧
      ∃ sorted, order rows (some text) = .ok sorted ∧
        IsSortedBy (keyOf o.column) o.descending rows sorted := by
  refine ⟨h.isTotalPreorder, ?_⟩
  have horder : order rows (some text) = orderBy o rows := by
    simp [order, SortOrder.parse?, ho]
  rw [horder, orderBy, keyed_eq hkeys]
  refine ⟨_, rfl, ?_⟩
  cases hdesc : o.descending with
  | false => exact ascending_isSortedBy h
  | true => exact descending_isSortedBy h

/-- Rows that are ordered by numbers, one of them without a cell and one with an empty
text, and two of them level. -/
def levelRows : List Row :=
  [Row.ofList [("k", .number .one), ("n", .text "a")], Row.ofList [("n", .text "b")],
    Row.ofList [("k", .text ""), ("n", .text "c")], Row.ofList [("k", .number .zero)],
    Row.ofList [("k", .number .one), ("n", .text "d")]]

theorem keyOf_levelRows : levelRows.map (keyOf "k") =
    [.number .one, .null, .text "", .number .zero, .number .one] := rfl

theorem hasKeys_levelRows : HasKeys "k" levelRows := by
  simp only [HasKeys, levelRows, List.forall_mem_cons]
  exact ⟨⟨_, rfl⟩, ⟨_, rfl⟩, ⟨_, rfl⟩, ⟨_, rfl⟩, ⟨_, rfl⟩, by simp⟩

theorem homogeneous_levelRows : Value.Homogeneous (levelRows.map (keyOf "k")) := by
  rw [keyOf_levelRows]
  exact ⟨by decide, by decide⟩

theorem order_levelRows_isSortedBy :
    (SortOrder.ofText? "k desc" = some ⟨"k", true⟩ ∧ HasKeys "k" levelRows ∧
      Value.Homogeneous (levelRows.map (keyOf "k"))) ∧
    Value.IsTotalPreorder (levelRows.map (keyOf "k")) ∧
      ∃ sorted, order levelRows (some "k desc") = .ok sorted ∧
        IsSortedBy (keyOf "k") true levelRows sorted :=
  ⟨⟨by rfl, hasKeys_levelRows, homogeneous_levelRows⟩,
    order_isSortedBy (o := ⟨"k", true⟩) rfl hasKeys_levelRows homogeneous_levelRows⟩

end TableQuery.Rows
