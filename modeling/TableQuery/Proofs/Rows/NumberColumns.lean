import TableQuery.Proofs.Binary64.Monotone
import TableQuery.Proofs.Rows.Order
import TableQuery.Proofs.Value.NumberTexts

/-!
# Columns of numbers

A text is read as a number exactly when it is one of the grammar and within the finite range. It is
read as the double nearest to its exact value, so a column of such texts is ordered as the exact
values are, but for numbers that are read as one double.
-/

namespace TableQuery.Rows

open scoped List

open TableQuery.Sorting TableQuery.Text

open Binary64 (number? StandsFor IsNearest)

/-- In the column a row has no value or a text that is read as a number. -/
def IsNumeric (column : String) (row : Row) : Prop :=
  (row.get? column).getD .null = .null ∨
    ∃ s x, row.get? column = some (.text s) ∧ number? s = some x

/-- The exact values of two texts are in order, or both texts are read as one double. -/
def InExactOrder (descending : Bool) (s t : String) : Prop :=
  ∀ p q, StandsFor (trimChars s) p → StandsFor (trimChars t) q →
    (if descending then q ≤ p else p ≤ q) ∨
      ∃ x y, number? s = some x ∧ number? t = some y ∧ x.value = y.value

/-- The rows of `sorted` are those of `rows`, and of two texts in the column the one in front has
its exact value in front. -/
structure IsSortedExactly (column : String) (descending : Bool) (rows sorted : List Row) :
    Prop where
  perm : sorted ~ rows
  inOrder : sorted.Pairwise fun a b => ∀ s t, a.get? column = some (.text s) →
    b.get? column = some (.text t) → InExactOrder descending s t

section Keys

variable {column : String} {row : Row} {rows : List Row} {s : String} {x : Binary64}

theorem cellKey_of_number? (hcell : row.get? column = some (.text s))
    (hread : number? s = some x) : Value.cellKey (row.get? column) = .ok (.number x) := by
  rw [hcell, Value.cellKey_some, Value.sortKey_of_number? hread]

theorem keyOf_of_number? (hcell : row.get? column = some (.text s))
    (hread : number? s = some x) : keyOf column row = .number x := by
  rw [keyOf, cellKey_of_number? hcell hread]

theorem IsNumeric.exists_cellKey (h : IsNumeric column row) :
    ∃ key, Value.cellKey (row.get? column) = .ok key := by
  rcases h with hnull | ⟨s, x, hcell, hread⟩
  · exact ⟨.null, by rw [Value.cellKey, hnull]; rfl⟩
  · exact ⟨_, cellKey_of_number? hcell hread⟩

theorem IsNumeric.keyOf_cases (h : IsNumeric column row) :
    keyOf column row = .null ∨ ∃ x, keyOf column row = .number x ∧ x.isFinite = true := by
  rcases h with hnull | ⟨s, x, hcell, hread⟩
  · left
    rw [keyOf, Value.cellKey, hnull]
    rfl
  · exact .inr ⟨x, keyOf_of_number? hcell hread, Binary64.isFinite_of_number? hread⟩

theorem homogeneous_of_isNumeric (h : ∀ row ∈ rows, IsNumeric column row) :
    Value.Homogeneous (rows.map (keyOf column)) := by
  have hcases : ∀ v ∈ rows.map (keyOf column),
      v = .null ∨ ∃ x, v = .number x ∧ x.isFinite = true := by
    rw [List.forall_mem_map]
    exact fun row hrow => (h row hrow).keyOf_cases
  constructor
  case isNan_eq_false =>
    intro v hv
    rcases hcases v hv with rfl | ⟨x, rfl, hfinite⟩
    · rfl
    · exact Binary64.isNan_of_isFinite hfinite
  case kind_eq =>
    intro a ha b hb hnull _ hnull' _
    obtain ⟨x, rfl, -⟩ := (hcases a ha).resolve_left hnull
    obtain ⟨y, rfl, -⟩ := (hcases b hb).resolve_left hnull'
    rfl

end Keys

section Sorted

variable {column : String} {descending : Bool} {rows sorted : List Row}

/-- Texts whose keys are in order have their exact values in order. -/
theorem inExactOrder_of_keyOf {a b : Row} {s t : String} (ha : a.get? column = some (.text s))
    (hb : b.get? column = some (.text t)) (hs : ∃ x, number? s = some x)
    (ht : ∃ y, number? t = some y)
    (hkeys : if descending then ((keyOf column a).compare (keyOf column b)).isGE = true
      else ((keyOf column a).compare (keyOf column b)).isLE = true) :
    InExactOrder descending s t := by
  intro p q hp hq
  obtain ⟨x, hx⟩ := hs
  obtain ⟨y, hy⟩ := ht
  have hxfinite := Binary64.isFinite_of_number? hx
  have hyfinite := Binary64.isFinite_of_number? hy
  rw [keyOf_of_number? ha hx, keyOf_of_number? hb hy] at hkeys
  cases descending with
  | false =>
      have hle := (Binary64.isLE_compare_iff hxfinite hyfinite).1 hkeys
      exact (Binary64.le_or_value_eq_of_number? hx hy hp hq hle).imp_right fun heq =>
        ⟨x, y, hx, hy, heq⟩
  | true =>
      rw [if_pos rfl, ← Value.compare_swap, Ordering.isGE_swap] at hkeys
      have hle := (Binary64.isLE_compare_iff hyfinite hxfinite).1 hkeys
      exact (Binary64.le_or_value_eq_of_number? hy hx hq hp hle).imp_right fun heq =>
        ⟨x, y, hx, hy, heq.symm⟩

theorem IsSortedBy.isSortedExactly (h : IsSortedBy (keyOf column) descending rows sorted)
    (hrows : ∀ row ∈ rows, IsNumeric column row) :
    IsSortedExactly column descending rows sorted := by
  have hread : ∀ row ∈ sorted, ∀ s, row.get? column = some (.text s) →
      ∃ x, number? s = some x := by
    intro row hrow s hs
    rcases hrows row (h.perm.subset hrow) with hnull | ⟨s', x, hs', hx⟩
    · rw [hs] at hnull
      cases hnull
    · rw [hs, Option.some.injEq, Value.text.injEq] at hs'
      exact ⟨x, hs' ▸ hx⟩
  refine ⟨h.perm, h.inOrder.imp_of_mem fun {a b} ha hb hab s t hs ht => ?_⟩
  exact inExactOrder_of_keyOf hs ht (hread a ha s hs) (hread b hb t ht) hab

theorem exists_orderBy_isSortedBy {o : SortOrder} (hkeys : HasKeys o.column rows)
    (h : Value.Homogeneous (rows.map (keyOf o.column))) :
    ∃ sorted, orderBy o rows = .ok sorted ∧
      IsSortedBy (keyOf o.column) o.descending rows sorted := by
  rw [orderBy, keyed_eq hkeys]
  refine ⟨_, rfl, ?_⟩
  cases hdesc : o.descending with
  | false => exact ascending_isSortedBy h
  | true => exact descending_isSortedBy h

end Sorted

/-- Which texts are read as numbers, what they are read as, and in which order they come. -/
structure ReadsNumbers : Prop where
  accepted : ∀ s, (∃ x, number? s = some x) ↔
    ∃ q, StandsFor (trimChars s) q ∧ |q| < 2 ^ 1024 - 2 ^ 970
  nearest : ∀ s x q, number? s = some x → StandsFor (trimChars s) q → IsNearest x q
  monotone : ∀ s t x y p q, number? s = some x → number? t = some y →
    StandsFor (trimChars s) p → StandsFor (trimChars t) q → p ≤ q →
      x.value ≤ y.value ∧ (x.compare y).isLE = true
  columns : ∀ rows text o, SortOrder.ofText? text = some o →
    (∀ row ∈ rows, IsNumeric o.column row) →
      ∃ sorted, order rows (some text) = .ok sorted ∧
        IsSortedExactly o.column o.descending rows sorted

/-- Texts are numbers by the grammar and the finite range, and they are read and ordered by their
exact values. -/
theorem readsNumbers : ReadsNumbers := by
  constructor
  case accepted => exact fun s => Binary64.exists_number?_iff
  case nearest => exact fun s x q => Binary64.isNearest_of_number?
  case monotone =>
    intro s t x y p q hx hy hp hq hle
    have hvalue := Binary64.value_le_of_number? hx hy hp hq hle
    exact ⟨hvalue, (Binary64.isLE_compare_iff (Binary64.isFinite_of_number? hx)
      (Binary64.isFinite_of_number? hy)).2 hvalue⟩
  case columns =>
    intro rows text o ho hrows
    have horder : order rows (some text) = orderBy o rows := by
      simp only [order, SortOrder.parse?, Option.bind_some, ho]
    obtain ⟨sorted, hsorted, hkeys⟩ := exists_orderBy_isSortedBy
      (fun row hrow => (hrows row hrow).exists_cellKey) (homogeneous_of_isNumeric hrows)
    exact ⟨sorted, horder.trans hsorted, hkeys.isSortedExactly hrows⟩

/-- Two numbers that are read as one double, the larger one with its digits in groups, a number that
is read as zero, and no value. -/
def roundedRows : List Row :=
  [Row.ofList [("n", .text "9,007,199,254,740,993")], Row.ofList [("n", .text " 1e-400")],
    Row.ofList [("n", .text "+9007199254740992.")], Row.ofList [("m", .text "-1")]]

theorem isNumeric_roundedRows : ∀ row ∈ roundedRows, IsNumeric "n" row := by
  simp only [roundedRows, List.forall_mem_cons]
  refine ⟨.inr ⟨_, .ofDecimal false 9007199254740993 0, rfl, ?_⟩,
    .inr ⟨_, .ofDecimal false 1 (-400), rfl, ?_⟩,
    .inr ⟨_, .ofDecimal false 9007199254740992 0, rfl, ?_⟩, .inl rfl, by simp⟩ <;>
    decide +kernel

theorem readsNumbers_rounded :
    (SortOrder.ofText? "n desc" = some ⟨"n", true⟩ ∧ ∀ row ∈ roundedRows, IsNumeric "n" row) ∧
      ∃ sorted, order roundedRows (some "n desc") = .ok sorted ∧
        IsSortedExactly "n" true roundedRows sorted :=
  ⟨⟨rfl, isNumeric_roundedRows⟩,
    readsNumbers.columns roundedRows "n desc" ⟨"n", true⟩ rfl isNumeric_roundedRows⟩

end TableQuery.Rows
