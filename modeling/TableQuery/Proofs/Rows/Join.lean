import Mathlib.Algebra.BigOperators.Group.Finset.Basic
import TableQuery.Proofs.Value.Same
import TableQuery.Rows.Join

/-!
# Joining is the nested loop

`find_insert` says what filing a row changes: the rows under the keys that are the same as
its own. So the index holds under each key the right rows with that key in their order,
and probing it with the left rows one after the other is the nested loop over both lists. The
length of the nested loop is counted key by key.
-/

namespace TableQuery.KeyIndex

theorem find_insert (key k : Value) (row : Row) (index : KeyIndex) :
    find key (insert k row index) =
      if k.same key then find key index ++ [row] else find key index := by
  induction index with
  | nil => simp [insert, find]
  | cons entry index ih =>
      obtain ⟨k', rows⟩ := entry
      rw [insert]
      by_cases hk : k'.same k = true
      · rw [if_pos hk, find, find, Value.same_congr hk key]
        split <;> rfl
      · rw [if_neg hk, find, find, ih]
        by_cases hkey : k'.same key = true
        · have hother : ¬k.same key = true := by
            intro h
            exact hk (Value.same_trans hkey ((Value.same_comm key k).trans h))
          rw [if_pos hkey, if_pos hkey, if_neg hother]
        · rw [if_neg hkey, if_neg hkey]

end TableQuery.KeyIndex

namespace TableQuery.Rows

/-- The row has the key in a column, which is not missing. -/
def hasKey (column : String) (key : Value) (row : Row) : Bool :=
  match row.get? column with
  | some value => !value.isNull && value.same key
  | none => false

theorem fileUnder_missing {column : String} {rows : List Row}
    (h : ∃ row ∈ rows, row.get? column = none) (index : KeyIndex) :
    fileUnder column index rows = .error ⟨.right, column⟩ := by
  induction rows generalizing index with
  | nil => simp at h
  | cons row rows ih =>
      rw [fileUnder]
      cases hrow : row.get? column with
      | none => rfl
      | some key =>
          obtain ⟨r, hr, hnone⟩ := h
          rcases List.mem_cons.1 hr with rfl | hr
          · rw [hnone] at hrow
            exact absurd hrow (by simp)
          · exact ih ⟨r, hr, hnone⟩ _

/-- Once filed, the rows under a key are those that were there and behind them the new
ones with the key. -/
theorem fileUnder_found {column : String} {rows : List Row}
    (h : ∀ row ∈ rows, row.get? column ≠ none) (index : KeyIndex) :
    ∃ filed, fileUnder column index rows = .ok filed ∧
      ∀ key, filed.find key = index.find key ++ rows.filter (hasKey column key) := by
  induction rows generalizing index with
  | nil => exact ⟨index, rfl, by simp⟩
  | cons row rows ih =>
      rw [fileUnder]
      cases hrow : row.get? column with
      | none => exact absurd hrow (h row (by simp))
      | some value =>
          have hrest : ∀ r ∈ rows, r.get? column ≠ none := fun r hr => h r (by simp [hr])
          cases hnull : value.isNull with
          | true =>
              obtain ⟨filed, hfiled, hfind⟩ := ih hrest index
              refine ⟨filed, by simpa only [hnull, if_true] using hfiled, fun key => ?_⟩
              rw [hfind, List.filter_cons_of_neg (by simp [hasKey, hrow, hnull])]
          | false =>
              obtain ⟨filed, hfiled, hfind⟩ := ih hrest (index.insert value row)
              refine ⟨filed, by simpa [hnull] using hfiled, fun key => ?_⟩
              rw [hfind, KeyIndex.find_insert]
              by_cases hsame : value.same key = true
              · rw [if_pos hsame, List.filter_cons_of_pos (by simp [hasKey, hrow, hnull, hsame])]
                simp
              · rw [if_neg hsame, List.filter_cons_of_neg (by simp [hasKey, hrow, hnull, hsame])]

/-- A right row has the key that a left row has. -/
def matching (leftColumn rightColumn : String) (l r : Row) : Bool :=
  match l.get? leftColumn with
  | some key => !key.isNull && hasKey rightColumn key r
  | none => false

/-- Every left row merged with every right row of the same key, left order first. -/
def nestedLoop (left right : List Row) (leftColumn rightColumn : String) : List Row :=
  left.flatMap fun l => (right.filter (matching leftColumn rightColumn l)).map l.merge

theorem mem_nestedLoop {left right : List Row} {leftColumn rightColumn : String} {row : Row} :
    row ∈ nestedLoop left right leftColumn rightColumn ↔
      ∃ l ∈ left, ∃ r ∈ right, matching leftColumn rightColumn l r = true ∧ l.merge r = row := by
  simp only [nestedLoop, List.mem_flatMap, List.mem_map, List.mem_filter, and_assoc]

theorem hasKey_null (column : String) (row : Row) : hasKey column .null row = false := by
  rw [hasKey]
  cases row.get? column with
  | none => rfl
  | some value => cases value <;> rfl

theorem matching_of_get? {leftColumn : String} {l : Row} {key : Value}
    (h : l.get? leftColumn = some key) (rightColumn : String) :
    matching leftColumn rightColumn l = hasKey rightColumn key := by
  funext r
  rw [matching, h]
  cases key with
  | null => simp [Value.isNull, hasKey_null]
  | _ => simp [Value.isNull]

theorem mergeMatches_missing {column : String} {rows : List Row}
    (h : ∃ row ∈ rows, row.get? column = none) (index : KeyIndex) :
    mergeMatches column index rows = .error ⟨.left, column⟩ := by
  induction rows with
  | nil => simp at h
  | cons row rows ih =>
      rw [mergeMatches]
      cases hrow : row.get? column with
      | none => rfl
      | some key =>
          obtain ⟨r, hr, hnone⟩ := h
          rcases List.mem_cons.1 hr with rfl | hr
          · rw [hnone] at hrow
            exact absurd hrow (by simp)
          · simp only [ih ⟨r, hr, hnone⟩, Except.map]

theorem mergeMatches_found {leftColumn rightColumn : String} {left right : List Row}
    {index : KeyIndex} (hleft : ∀ row ∈ left, row.get? leftColumn ≠ none)
    (hindex : ∀ key, index.find key = right.filter (hasKey rightColumn key)) :
    mergeMatches leftColumn index left = .ok (nestedLoop left right leftColumn rightColumn) := by
  induction left with
  | nil => rfl
  | cons row left ih =>
      rw [mergeMatches]
      cases hrow : row.get? leftColumn with
      | none => exact absurd hrow (hleft row (by simp))
      | some key =>
          rw [ih fun r hr => hleft r (by simp [hr])]
          simp [nestedLoop, matching_of_get? hrow, hindex, Except.map]

/-- The values that rows of a column are counted under. -/
def filings (column : String) (rows : List Row) : List Value :=
  rows.filterMap fun row => (row.get? column).bind Value.filing?

theorem filings_cons (column : String) (row : Row) (rows : List Row) :
    filings column (row :: rows) =
      ((row.get? column).bind Value.filing?).toList ++ filings column rows := by
  rw [filings, List.filterMap_cons]
  cases (row.get? column).bind Value.filing? <;> rfl

/-- No row holds the undefined number in a column. -/
def NoNan (column : String) (rows : List Row) : Prop :=
  ∀ row ∈ rows, ∀ value, row.get? column = some value → value.isNan = false

theorem hasKey_iff {column : String} {row : Row} {key k : Value} (hkey : key.isNan = false)
    (hk : key.filing? = some k)
    (hrow : ∀ value, row.get? column = some value → value.isNan = false) :
    hasKey column key row = true ↔ (row.get? column).bind Value.filing? = some k := by
  rw [hasKey]
  cases hget : row.get? column with
  | none => simp
  | some value =>
      rw [Option.bind_some, ← hk, ← Value.same_iff_filing?_eq (hrow value hget) hkey]
      cases value with
      | null => cases key <;> simp_all [Value.isNull, Value.same, Value.filing?]
      | _ => simp [Value.isNull]

theorem length_filter_hasKey {column : String} {rows : List Row} {key k : Value}
    (hkey : key.isNan = false) (hk : key.filing? = some k) (hrows : NoNan column rows) :
    (rows.filter (hasKey column key)).length = (filings column rows).count k := by
  induction rows with
  | nil => rfl
  | cons row rows ih =>
      have hiff := hasKey_iff hkey hk (hrows row (by simp))
      have hrest := ih fun r hr => hrows r (by simp [hr])
      rw [filings_cons]
      by_cases hrow : hasKey column key row = true
      · rw [List.filter_cons_of_pos hrow, hiff.1 hrow]
        simp [hrest]
      · rw [List.filter_cons_of_neg hrow, hrest]
        cases hother : (row.get? column).bind Value.filing? with
        | none => rfl
        | some k' =>
            have hne : k' ≠ k := by
              rintro rfl
              exact hrow (hiff.2 hother)
            simp [hne]

theorem length_filter_matching {leftColumn rightColumn : String} {l : Row} {right : List Row}
    (hl : ∀ value, l.get? leftColumn = some value → value.isNan = false)
    (hright : NoNan rightColumn right) :
    (right.filter (matching leftColumn rightColumn l)).length =
      (((l.get? leftColumn).bind Value.filing?).map
        fun k => (filings rightColumn right).count k).getD 0 := by
  cases hget : l.get? leftColumn with
  | none => simp [matching, hget]
  | some key =>
      rw [matching_of_get? hget, Option.bind_some]
      cases hk : key.filing? with
      | none =>
          have hnull : key = .null := by
            cases key <;> simp_all [Value.filing?]
          simp [hnull, hasKey_null]
      | some k => exact length_filter_hasKey (hl key hget) hk hright

/-- The length of the nested loop is the sum over the keys of the number of left rows
times the number of right rows. -/
theorem length_nestedLoop {left right : List Row} {leftColumn rightColumn : String}
    (hleft : NoNan leftColumn left) (hright : NoNan rightColumn right) :
    (nestedLoop left right leftColumn rightColumn).length =
      ∑ k ∈ (filings leftColumn left).toFinset,
        (filings leftColumn left).count k * (filings rightColumn right).count k := by
  have hsum : (nestedLoop left right leftColumn rightColumn).length =
      ((filings leftColumn left).map fun k => (filings rightColumn right).count k).sum := by
    induction left with
    | nil => rfl
    | cons l left ih =>
        have hl := length_filter_matching (hleft l (by simp)) hright
        have ih := ih fun r hr => hleft r (by simp [hr])
        rw [nestedLoop] at ih
        rw [nestedLoop, List.flatMap_cons, List.length_append, List.length_map, hl, ih,
          filings_cons]
        cases (l.get? leftColumn).bind Value.filing? <;> simp
  rw [hsum, Finset.sum_list_map_count]
  simp

theorem join_of_left_ne_nil {left : List Row} (h : left ≠ []) (right : List Row)
    (leftColumn rightColumn : String) :
    join left right leftColumn rightColumn =
      match fileUnder rightColumn [] right with
      | .error e => .error e
      | .ok index => mergeMatches leftColumn index left := by
  rw [join]
  exact if_neg (by simpa using h)

theorem join_eq (left right : List Row) (leftColumn rightColumn : String) :
    join left right leftColumn rightColumn =
      if left = [] then .ok []
      else if ∃ r ∈ right, r.get? rightColumn = none then .error ⟨.right, rightColumn⟩
      else if ∃ l ∈ left, l.get? leftColumn = none then .error ⟨.left, leftColumn⟩
      else .ok (nestedLoop left right leftColumn rightColumn) := by
  split_ifs with hnil hr hl
  · rw [hnil, join_nil]
  · rw [join_of_left_ne_nil hnil, fileUnder_missing hr]
  · obtain ⟨index, hindex, -⟩ := fileUnder_found (by simpa using hr) []
    rw [join_of_left_ne_nil hnil, hindex]
    exact mergeMatches_missing hl index
  · obtain ⟨index, hindex, hfind⟩ := fileUnder_found (by simpa using hr) []
    rw [join_of_left_ne_nil hnil, hindex]
    exact mergeMatches_found (by simpa using hl) hfind

theorem join_of_found {left right : List Row} {leftColumn rightColumn : String}
    (hleft : ∀ l ∈ left, l.get? leftColumn ≠ none)
    (hright : ∀ r ∈ right, r.get? rightColumn ≠ none) :
    join left right leftColumn rightColumn =
      .ok (nestedLoop left right leftColumn rightColumn) := by
  rw [join_eq]
  split_ifs with hnil hr hl
  · rw [hnil]
    rfl
  · obtain ⟨r, hmem, hnone⟩ := hr
    exact absurd hnone (hright r hmem)
  · obtain ⟨l, hmem, hnone⟩ := hl
    exact absurd hnone (hleft l hmem)
  · rfl

theorem eq_nestedLoop_of_join {left right joined : List Row} {leftColumn rightColumn : String}
    (h : join left right leftColumn rightColumn = .ok joined) :
    joined = nestedLoop left right leftColumn rightColumn := by
  rw [join_eq] at h
  split_ifs at h with hnil hr hl
  · cases h
    rw [hnil]
    rfl
  · cases h
    rfl

/-- A join is the nested loop over both lists. It fails when a row lacks its column, and the
right rows are reported first; without left rows nothing is looked at. The number of
joined rows is the sum over the keys of the number of left rows times the number of right
rows. -/
theorem join_eq_nestedLoop {left right : List Row} {leftColumn rightColumn : String}
    (hleft : NoNan leftColumn left) (hright : NoNan rightColumn right) :
    (join left right leftColumn rightColumn =
      if left = [] then .ok []
      else if ∃ r ∈ right, r.get? rightColumn = none then .error ⟨.right, rightColumn⟩
      else if ∃ l ∈ left, l.get? leftColumn = none then .error ⟨.left, leftColumn⟩
      else .ok (nestedLoop left right leftColumn rightColumn)) ∧
    ∀ joined, join left right leftColumn rightColumn = .ok joined →
      joined.length = ∑ k ∈ (filings leftColumn left).toFinset,
        (filings leftColumn left).count k * (filings rightColumn right).count k := by
  refine ⟨join_eq left right leftColumn rightColumn, fun joined hjoined => ?_⟩
  rw [eq_nestedLoop_of_join hjoined]
  exact length_nestedLoop hleft hright

/-- Left rows with the negative zero twice and a missing value. -/
def zeroLeft : List Row :=
  [Row.ofList [("k", .number (Binary64.neg .zero)), ("a", .text "x")],
    Row.ofList [("k", .null), ("a", .text "y")],
    Row.ofList [("k", .number (Binary64.neg .zero)), ("a", .text "z")]]

/-- Right rows with the positive zero, its text, and a missing value. -/
def zeroRight : List Row :=
  [Row.ofList [("k", .number .zero), ("a", .text "u")], Row.ofList [("k", .text "0")],
    Row.ofList [("k", .null)]]

theorem noNan_zeroLeft : NoNan "k" zeroLeft := by
  simp only [NoNan, zeroLeft, List.forall_mem_cons]
  exact ⟨by decide, by decide, by decide, by simp⟩

theorem noNan_zeroRight : NoNan "k" zeroRight := by
  simp only [NoNan, zeroRight, List.forall_mem_cons]
  exact ⟨by decide, by decide, by decide, by simp⟩

/-- The zeros match whatever their signs are; the text and the missing values do not. -/
theorem join_zeroLeft_zeroRight : (NoNan "k" zeroLeft ∧ NoNan "k" zeroRight) ∧
    join zeroLeft zeroRight "k" "k" = .ok (nestedLoop zeroLeft zeroRight "k" "k") ∧
    2 = ∑ k ∈ (filings "k" zeroLeft).toFinset,
      (filings "k" zeroLeft).count k * (filings "k" zeroRight).count k := by
  obtain ⟨hjoin, hcount⟩ := join_eq_nestedLoop noNan_zeroLeft noNan_zeroRight
  rw [if_neg (by decide), if_neg (by decide), if_neg (by decide)] at hjoin
  exact ⟨⟨noNan_zeroLeft, noNan_zeroRight⟩, hjoin, hcount _ hjoin⟩

end TableQuery.Rows
