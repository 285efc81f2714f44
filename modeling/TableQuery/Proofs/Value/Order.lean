import TableQuery.Proofs.Value.Same
import TableQuery.Value.SortKey
import TableQuery.Value.Order

/-!
# Laws of the order of values

Swapping two values swaps the outcome, whatever they are. Missing values come before the
empty text and the empty text before every other value; `weight` counts these three steps.
Among values of which all beyond the second step are of one kind, the order is transitive.
-/

namespace TableQuery.Text

theorem applyTables_ne_nil {expansions : CaseExpansions}
    (h : ∀ e ∈ expansions, e.2 ≠ []) (runs : CaseRuns) (c : Char) :
    applyTables runs expansions c ≠ [] := by
  rw [applyTables]
  split
  · next ns hns =>
      rw [List.lookup_eq_some_iff] at hns
      obtain ⟨front, back, rfl, -⟩ := hns
      simpa using h (c.toNat, ns) (by simp)
  · simp

theorem foldChar_ne_nil (c : Char) : foldChar c ≠ [] := by
  rw [foldChar]
  split
  · simp
  · exact applyTables_ne_nil (by decide) foldRuns c

@[simp] theorem fold_empty : fold "" = [] := rfl

theorem fold_ne_nil {s : String} (h : s ≠ "") : fold s ≠ [] := by
  intro hfold
  rw [fold, List.flatMap_eq_nil_iff] at hfold
  cases hs : s.toList with
  | nil => exact h (String.toList_eq_nil_iff.1 hs)
  | cons c cs => exact foldChar_ne_nil c (hfold c (by simp [hs]))

theorem compareFold_swap (a b : String) : (compareFold a b).swap = compareFold b a :=
  Std.OrientedOrd.eq_swap.symm

theorem compareFold_isLE_trans {a b c : String} (hab : (compareFold a b).isLE)
    (hbc : (compareFold b c).isLE) : (compareFold a c).isLE :=
  Std.TransOrd.isLE_trans hab hbc

theorem compareFold_empty {s : String} (h : s ≠ "") : compareFold "" s = .lt := by
  rw [compareFold, fold_empty]
  cases hs : fold s with
  | nil => exact absurd hs (fold_ne_nil h)
  | cons c cs => rfl

end TableQuery.Text

namespace TableQuery.Binary64

theorem positional_ne_nil {digits tail : List Char} {point : Int} (h : tail ≠ []) :
    positional digits point tail ≠ [] := by
  rw [positional]
  split
  · simp
  · dsimp only
    split <;> simp [h]

theorem literalChars_ne_nil (x : Binary64) : x.literalChars ≠ [] := by
  cases x with
  | nan => simp [literalChars]
  | infinite neg => simp [literalChars]
  | finite neg n h =>
      rw [literalChars]
      split
      · simp
      · dsimp only
        split
        · simp [positional_ne_nil]
        · simp [scientific, exponentText]

theorem intText_ne_empty (n : Int) : intText n ≠ "" := by
  simp [intText, String.ofList_eq_empty_iff]

theorem text_ne_empty (x : Binary64) : x.text ≠ "" := by
  have hliteral : x.literal ≠ "" := by
    simp [literal, literalChars_ne_nil]
  rw [text]
  split
  · split
    · exact intText_ne_empty _
    · exact hliteral
  · exact hliteral

end TableQuery.Binary64

namespace TableQuery.Calendar.Timestamp

theorem text_ne_empty (t : Timestamp) : t.text ≠ "" := by
  simp [text, chars]

theorem compare_swap (a b : Timestamp) : (compare a b).swap = compare b a :=
  Std.OrientedOrd.eq_swap.symm

end TableQuery.Calendar.Timestamp

namespace TableQuery.Value

open TableQuery.Text TableQuery.Calendar

/-- The kinds of values. -/
inductive Kind
  | null
  | text
  | number
  | timestamp
  deriving DecidableEq

/-- The kind of a value. -/
def kind : Value → Kind
  | .null => .null
  | .text _ => .text
  | .number _ => .number
  | .timestamp _ => .timestamp

/-- Missing values first, then the empty text, then everything else. -/
def weight : Value → Nat
  | .null => 0
  | .text s => if s = "" then 1 else 2
  | _ => 2

/-- Values of which all but the missing ones and the empty text are of one kind, the
undefined number not among them. -/
structure Homogeneous (values : List Value) : Prop where
  isNan_eq_false : ∀ v ∈ values, v.isNan = false
  kind_eq : ∀ a ∈ values, ∀ b ∈ values, a ≠ .null → a ≠ .text "" → b ≠ .null → b ≠ .text "" →
    a.kind = b.kind

theorem Homogeneous.mono {values others : List Value} (h : Homogeneous values)
    (hsub : others ⊆ values) : Homogeneous others where
  isNan_eq_false v hv := h.isNan_eq_false v (hsub hv)
  kind_eq a ha b hb := h.kind_eq a (hsub ha) b (hsub hb)

theorem compare_swap (a b : Value) : (compare a b).swap = compare b a := by
  cases a with
  | null => cases b <;> rfl
  | text s =>
      cases b with
      | null => rfl
      | text t => exact compareFold_swap s t
      | number y => exact compareFold_swap s y.text
      | timestamp u => exact compareFold_swap s u.text
  | number x =>
      cases b with
      | null => rfl
      | text t => exact compareFold_swap x.text t
      | number y => exact Binary64.compare_swap x y
      | timestamp u => exact compareFold_swap x.text u.text
  | timestamp r =>
      cases b with
      | null => rfl
      | text t => exact compareFold_swap r.text t
      | number y => exact compareFold_swap r.text y.text
      | timestamp u => exact Timestamp.compare_swap r u

theorem compare_self (a : Value) : compare a a = .eq := by
  have h := compare_swap a a
  cases hc : compare a a <;> simp_all

theorem weight_le_two (v : Value) : v.weight ≤ 2 := by
  cases v with
  | null => exact Nat.zero_le 2
  | text s =>
      rw [weight]
      split <;> omega
  | number x => exact Nat.le_refl 2
  | timestamp t => exact Nat.le_refl 2

theorem weight_eq_zero_iff {v : Value} : v.weight = 0 ↔ v = .null := by
  cases v with
  | text s =>
      rw [weight]
      split <;> simp
  | _ => simp [weight]

theorem weight_eq_one_iff {v : Value} : v.weight = 1 ↔ v = .text "" := by
  cases v with
  | text s =>
      rw [weight]
      split <;> simp_all
  | _ => simp [weight]

theorem words_ne_empty {v : Value} (h : v.weight = 2) : v.words ≠ "" := by
  cases v with
  | null => exact absurd h (by simp [weight])
  | text s =>
      intro hs
      rw [words] at hs
      simp [weight, hs] at h
  | number x => exact x.text_ne_empty
  | timestamp t => exact t.text_ne_empty

/-- The three steps are in order whatever the kinds are. -/
theorem compare_of_weight_lt {a b : Value} (h : a.weight < b.weight) : compare a b = .lt := by
  have hb := weight_le_two b
  rcases Nat.lt_or_ge a.weight 1 with ha | ha
  · have hnull : a = .null := weight_eq_zero_iff.1 (by omega)
    subst hnull
    cases b with
    | null => exact absurd h (by simp)
    | _ => rfl
  · have hempty : a = .text "" := weight_eq_one_iff.1 (by omega)
    have hwords := words_ne_empty (by omega : b.weight = 2)
    subst hempty
    cases b with
    | null => exact absurd h (by simp [weight])
    | text s => exact compareFold_empty hwords
    | number x => exact compareFold_empty hwords
    | timestamp t => exact compareFold_empty hwords

theorem weight_le_of_isLE {a b : Value} (h : (compare a b).isLE) : a.weight ≤ b.weight := by
  by_contra hlt
  have hgt := congrArg Ordering.swap (compare_of_weight_lt (Nat.lt_of_not_le hlt))
  rw [compare_swap] at hgt
  rw [hgt] at h
  exact absurd h (by simp)

theorem isLE_trans_of_kind_eq {a b c : Value} (hab : a.kind = b.kind) (hbc : b.kind = c.kind)
    (ha : a.isNan = false) (hb : b.isNan = false) (hc : c.isNan = false)
    (hle : (compare a b).isLE) (hle' : (compare b c).isLE) : (compare a c).isLE := by
  cases a <;> cases b <;> cases c <;> simp only [kind, reduceCtorEq] at hab hbc
  case null.null.null => rfl
  case text.text.text r s t => exact compareFold_isLE_trans hle hle'
  case number.number.number x y z =>
      simp only [compare, isNan] at *
      rw [Binary64.compare_eq_compare_rank ha hb] at hle
      rw [Binary64.compare_eq_compare_rank hb hc] at hle'
      rw [Binary64.compare_eq_compare_rank ha hc]
      exact Std.TransOrd.isLE_trans hle hle'
  case timestamp.timestamp.timestamp r s t => exact Std.TransOrd.isLE_trans hle hle'

theorem Homogeneous.kind_eq_of_weight {values : List Value} (h : Homogeneous values) {a b : Value}
    (ha : a ∈ values) (hb : b ∈ values) (hwa : a.weight = 2) (hwb : b.weight = 2) :
    a.kind = b.kind := by
  refine h.kind_eq a ha b hb ?_ ?_ ?_ ?_ <;> rintro rfl
  · exact absurd hwa (by simp [weight])
  · exact absurd hwa (by simp [weight])
  · exact absurd hwb (by simp [weight])
  · exact absurd hwb (by simp [weight])

/-- On homogeneous values the order is transitive. -/
theorem Homogeneous.isLE_trans {values : List Value} (h : Homogeneous values) {a b c : Value}
    (ha : a ∈ values) (hb : b ∈ values) (hc : c ∈ values) (hab : (compare a b).isLE)
    (hbc : (compare b c).isLE) : (compare a c).isLE := by
  have hwab := weight_le_of_isLE hab
  have hwbc := weight_le_of_isLE hbc
  rcases Nat.lt_or_ge a.weight c.weight with hw | hw
  · rw [compare_of_weight_lt hw]
    rfl
  · -- All three stand on one step, and only the last one holds more than one value.
    have hstep : a.weight = 0 ∨ a.weight = 1 ∨ a.weight = 2 := by
      have := weight_le_two a
      omega
    rcases hstep with hw0 | hw1 | hw2
    · rw [weight_eq_zero_iff.1 hw0, weight_eq_zero_iff.1 (by omega : c.weight = 0)]
      rfl
    · rw [weight_eq_one_iff.1 hw1, weight_eq_one_iff.1 (by omega : c.weight = 1), compare_self]
      rfl
    · have hb2 : b.weight = 2 := by
        have := weight_le_two b
        omega
      have hc2 : c.weight = 2 := by
        have := weight_le_two c
        omega
      exact isLE_trans_of_kind_eq (h.kind_eq_of_weight ha hb hw2 hb2)
        (h.kind_eq_of_weight hb hc hb2 hc2) (h.isNan_eq_false a ha) (h.isNan_eq_false b hb)
        (h.isNan_eq_false c hc) hab hbc

/-- The order of values is a total preorder on a list of values, and on the finite numbers
among them it is the order of their exact values. -/
structure IsTotalPreorder (values : List Value) : Prop where
  refl : ∀ a ∈ values, compare a a = .eq
  swap : ∀ a ∈ values, ∀ b ∈ values, compare b a = (compare a b).swap
  trans : ∀ a ∈ values, ∀ b ∈ values, ∀ c ∈ values, (compare a b).isLE = true →
    (compare b c).isLE = true → (compare a c).isLE = true
  numbers : ∀ x y, .number x ∈ values → .number y ∈ values → x.isFinite = true →
    y.isFinite = true → compare (.number x) (.number y) = Ord.compare x.value y.value

theorem Homogeneous.isTotalPreorder {values : List Value} (h : Homogeneous values) :
    IsTotalPreorder values where
  refl := fun a _ => compare_self a
  swap := fun a _ b _ => (compare_swap a b).symm
  trans := fun _ ha _ hb _ hc => h.isLE_trans ha hb hc
  numbers := fun _ _ _ _ hx hy => Binary64.compare_eq_compare_value hx hy

end TableQuery.Value
