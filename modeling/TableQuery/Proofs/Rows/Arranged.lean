import TableQuery.Proofs.Rows.Order
import TableQuery.Proofs.Sorting.Lowest

/-!
# Ordering rows whose keys are of several kinds

The order of values is not transitive on numbers, timestamps and texts together. Fewer rows than
are sorted by merging come out with neighbours in order all the same, the rows without a value at
the low end as they stood before, and ordering them once more changes nothing.
-/

namespace TableQuery.Rows

open scoped List

open TableQuery.Sorting

/-- The row has no value in a column: it lacks the cell, or the cell is missing. -/
def lacks (column : String) (row : Row) : Bool :=
  ((row.get? column).getD .null).isNull

/-- The rows of `sorted` are those of `rows`. Of two neighbours none is out of order, and the rows
without a value in the column stand together, first or last by the direction, as they stood
before. -/
structure IsArrangedBy (column : String) (descending : Bool) (rows sorted : List Row) : Prop where
  perm : sorted ~ rows
  neighbours : sorted.IsChain fun a b =>
    if descending then ((keyOf column a).compare (keyOf column b)).isGE = true
    else ((keyOf column a).compare (keyOf column b)).isLE = true
  lacking : ∃ others, (∀ row ∈ others, lacks column row = false) ∧
    sorted = if descending then others ++ rows.filter (lacks column)
      else rows.filter (lacks column) ++ others

theorem isNull_textKey {s : String} {key : Value} (h : Value.textKey s = .ok key) :
    key.isNull = false := by
  rw [Value.textKey] at h
  split at h
  · cases h
  · cases h
    rfl
  · split at h
    · cases h
      rfl
    · cases h
      rfl

/-- A row that has a key has the missing one exactly when it has no value. -/
theorem isNull_keyOf {column : String} {row : Row} {key : Value}
    (h : Value.cellKey (row.get? column) = .ok key) :
    (keyOf column row).isNull = lacks column row := by
  have hkey : keyOf column row = key := by
    rw [keyOf, h]
  rw [hkey, lacks]
  rw [Value.cellKey] at h
  cases hvalue : (row.get? column).getD .null with
  | text s =>
      rw [hvalue] at h
      exact isNull_textKey h
  | _ =>
      rw [hvalue] at h
      cases h
      rfl

theorem isLowest_isNull_keyOf (column : String) :
    IsLowest (rowBelow column) fun row => (keyOf column row).isNull := by
  intro a b ha
  rw [Value.isNull_iff] at ha
  dsimp only
  rw [rowBelow, ha]
  cases keyOf column b <;> rfl

/-- Few rows are sorted by insertion, and for the falling order turned round before and after. -/
theorem orderBy_of_short {o : SortOrder} {rows : List Row} (hshort : rows.length < mergeThreshold)
    (hkeys : HasKeys o.column rows) :
    orderBy o rows = .ok (if o.descending then
        (insertionSort (rowBelow o.column) rows.reverse).reverse
      else insertionSort (rowBelow o.column) rows) := by
  have hsort : ∀ rows : List Row,
      (insertionSort keyBelow (rows.map (withKey o.column))).map Prod.snd =
        insertionSort (rowBelow o.column) rows := by
    intro rows
    rw [insertionSort_map, List.map_map]
    exact List.map_id _
  have hpairs : (rows.map (withKey o.column)).length < mergeThreshold := by
    rwa [List.length_map]
  rw [orderBy, keyed_eq hkeys, Except.map, ascending_of_short hpairs, descending_of_short hpairs]
  congr 1
  split
  · rw [List.map_reverse, ← hsort, List.map_reverse]
  · exact hsort rows

theorem exists_lacking_first {column : String} {rows : List Row} (hkeys : HasKeys column rows) :
    ∃ others, (∀ row ∈ others, lacks column row = false) ∧
      insertionSort (rowBelow column) rows = rows.filter (lacks column) ++ others := by
  have hasymm := rowBelow_asymmetric column
  obtain ⟨others, hothers, hsplit⟩ :=
    (isLowest_isNull_keyOf column).exists_insertionSort_eq hasymm rows
  have hlacks : ∀ row ∈ rows, (keyOf column row).isNull = lacks column row := by
    intro row hrow
    obtain ⟨key, hkey⟩ := hkeys row hrow
    exact isNull_keyOf hkey
  rw [List.filter_congr hlacks] at hsplit
  refine ⟨others, fun row hrow => ?_, hsplit⟩
  have hmem : row ∈ insertionSort (rowBelow column) rows :=
    hsplit ▸ List.mem_append_right _ hrow
  rw [← hlacks row ((insertionSort_perm _ rows).subset hmem)]
  exact hothers row hrow

theorem isArrangedBy_ascending {column : String} {rows : List Row} (hkeys : HasKeys column rows) :
    IsArrangedBy column false rows (insertionSort (rowBelow column) rows) where
  perm := insertionSort_perm _ rows
  neighbours := (isChain_insertionSort (rowBelow_asymmetric column) rows).imp fun _ _ hab =>
    inOrder_rowBelow_iff.1 hab
  lacking := exists_lacking_first hkeys

theorem isArrangedBy_descending {column : String} {rows : List Row} (hkeys : HasKeys column rows) :
    IsArrangedBy column true rows (insertionSort (rowBelow column) rows.reverse).reverse := by
  have hperm := insertionSort_perm (rowBelow column) rows.reverse
  have hchain := isChain_insertionSort (rowBelow_asymmetric column) rows.reverse
  obtain ⟨others, hothers, hsplit⟩ :=
    exists_lacking_first (hkeys.mono (List.reverse_perm rows).subset)
  constructor
  case perm => exact (List.reverse_perm _).trans (hperm.trans (List.reverse_perm rows))
  case neighbours =>
    rw [List.isChain_reverse]
    refine hchain.imp fun a b hab => ?_
    have hle := inOrder_rowBelow_iff.1 hab
    rwa [← Value.compare_swap, Ordering.isLE_swap] at hle
  case lacking =>
    refine ⟨others.reverse, fun row hrow => hothers row (List.mem_reverse.1 hrow), ?_⟩
    rw [hsplit, List.reverse_append, ← List.filter_reverse, List.reverse_reverse]
    rfl

/-- Fewer than 64 rows with keys of any kinds are arranged by them, and arranging them again
changes nothing. Of the order of values only one law is used: swapping two values swaps the
outcome. -/
theorem order_isArrangedBy {rows : List Row} {text : String} {o : SortOrder}
    (ho : SortOrder.ofText? text = some o) (hshort : rows.length < 64)
    (hkeys : HasKeys o.column rows) :
    (∀ a b : Value, a.compare b = (b.compare a).swap) ∧
      ∃ sorted, order rows (some text) = .ok sorted ∧
        IsArrangedBy o.column o.descending rows sorted ∧ order sorted (some text) = .ok sorted := by
  refine ⟨fun a b => (Value.compare_swap b a).symm, ?_⟩
  have horder : ∀ rows, order rows (some text) = orderBy o rows := by
    intro rows
    simp only [order, SortOrder.parse?, Option.bind_some, ho]
  have hasymm := rowBelow_asymmetric o.column
  have hsort := orderBy_of_short hshort hkeys
  have hagain : ∀ sorted, sorted ~ rows → orderBy o sorted = _ := fun sorted hperm =>
    orderBy_of_short (hperm.length_eq ▸ hshort) (hkeys.mono hperm.subset)
  refine ⟨_, (horder rows).trans hsort, ?_⟩
  rw [horder]
  cases hdesc : o.descending with
  | false =>
      have harranged := isArrangedBy_ascending hkeys
      refine ⟨harranged, (hagain _ harranged.perm).trans ?_⟩
      rw [hdesc, if_neg (by decide), if_neg (by decide),
        insertionSort_of_isChain (isChain_insertionSort hasymm rows)]
  | true =>
      have harranged := isArrangedBy_descending hkeys
      refine ⟨harranged, (hagain _ harranged.perm).trans ?_⟩
      rw [hdesc, if_pos rfl, if_pos rfl, List.reverse_reverse,
        insertionSort_of_isChain (isChain_insertionSort hasymm rows.reverse)]

theorem fits_two : Binary64.Fits (twoPow 1075) :=
  Binary64.fits_twoPow (by decide)

theorem fits_sixteen : Binary64.Fits (twoPow 1078) :=
  Binary64.fits_twoPow (by decide)

/-- Two comes before sixteen, sixteen before the text `17x` and that text before two; two rows have
no value. -/
def circularRows : List Row :=
  [Row.ofList [("k", .text "17x")], Row.ofList [("n", .text "a")],
    Row.ofList [("k", .number (.finite false (twoPow 1075) fits_two))],
    Row.ofList [("k", .null), ("n", .text "b")],
    Row.ofList [("k", .number (.finite false (twoPow 1078) fits_sixteen))]]

theorem hasKeys_circularRows : HasKeys "k" circularRows := by
  simp only [HasKeys, circularRows, List.forall_mem_cons]
  exact ⟨⟨_, rfl⟩, ⟨_, rfl⟩, ⟨_, rfl⟩, ⟨_, rfl⟩, ⟨_, rfl⟩, by simp⟩

theorem order_circularRows_isArrangedBy :
    (SortOrder.ofText? "k desc" = some ⟨"k", true⟩ ∧ circularRows.length < 64 ∧
      HasKeys "k" circularRows) ∧
    (∀ a b : Value, a.compare b = (b.compare a).swap) ∧
      ∃ sorted, order circularRows (some "k desc") = .ok sorted ∧
        IsArrangedBy "k" true circularRows sorted ∧ order sorted (some "k desc") = .ok sorted :=
  ⟨⟨by rfl, by decide, hasKeys_circularRows⟩,
    order_isArrangedBy (o := ⟨"k", true⟩) rfl (by decide) hasKeys_circularRows⟩

end TableQuery.Rows
