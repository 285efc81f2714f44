import TableQuery.Proofs.Binary64.RoundTrip
import TableQuery.Proofs.Value.NumberTexts

/-!
# Numbers as cells and as texts

A number that was written into a cell as text sorts as the number that a store's own value gives:
the double nearest to it. Its text is never taken for a timestamp.
-/

namespace TableQuery

open TableQuery.Text

/-- A number as data, its exact value, and the double that it is rounded to. -/
inductive Datum.Rounds : Datum → ℚ → Binary64 → Prop
  | int (n : Int) : Rounds (.int n) n (.ofInt n)
  | float (x : Binary64) : Rounds (.float x) x.value x
  | decimal (neg : Bool) (n : Nat) (e : Int) :
      Rounds (.decimal (.finite neg n e)) (Binary64.signed neg (n * 10 ^ e)) (.ofDecimal neg n e)

namespace Value

/-- A number whose value as a cell is a double, the nearest to it. Its text sorts as this double,
the double is read from its own text, and neither text is a timestamp. -/
structure NumberKept (d : Datum) (q : ℚ) (x : Binary64) : Prop where
  nearest : ∀ y : Binary64, y.isFinite = true → |x.value - q| ≤ |y.value - q|
  value : ofDatum d = .ok (.number x)
  key : ∃ y, sortKey (.text d.cellText) = .ok (.number y) ∧ y.same x = true
  read : ∃ y, Binary64.number? (words (.number x)) = some y ∧ y.same x = true
  untimed : readTimestamp d.cellText = .ok none ∧ readTimestamp (words (.number x)) = .ok none

theorem readTimestamp_of_isNumeralOf {s : String} {x : Binary64} (h : Binary64.IsNumeralOf s x) :
    readTimestamp s = .ok none := by
  obtain ⟨y, hread, -⟩ := h.number?
  exact readTimestamp_of_number? hread

theorem sortKey_of_isNumeralOf {s : String} {x : Binary64} (h : Binary64.IsNumeralOf s x) :
    ∃ y, sortKey (.text s) = .ok (.number y) ∧ y.same x = true := by
  obtain ⟨y, hread, hsame⟩ := h.number?
  exact ⟨y, sortKey_of_number? hread, hsame⟩

theorem isNumeralOf_cellText {d : Datum} {q : ℚ} {x : Binary64} (h : d.Rounds q x)
    (hfinite : x.isFinite = true) : Binary64.IsNumeralOf d.cellText x := by
  cases h with
  | int n => exact Binary64.isNumeralOf_intText hfinite
  | float x => exact Binary64.isNumeralOf_text hfinite
  | decimal neg n e => exact Binary64.isNumeralOf_decimal hfinite

theorem ofDatum_of_rounds {d : Datum} {q : ℚ} {x : Binary64} (h : d.Rounds q x)
    (hfinite : x.isFinite = true) : ofDatum d = .ok (.number x) := by
  cases h with
  | int n =>
      rw [ofDatum, Datum.native, ofNative, Binary64.ofInt?, if_pos hfinite]
      rfl
  | float x => rw [ofDatum, Datum.native, ofNative, ofFinite, if_pos hfinite]
  | decimal neg n e =>
      rw [ofDatum, Datum.native, ofNative, Decimal.toBinary64?, Option.map_some, ofFinite,
        if_pos hfinite]
      rfl

/-- No finite double is nearer to a number than the one that it is rounded to. -/
theorem abs_value_sub_le {d : Datum} {q : ℚ} {x y : Binary64} (h : d.Rounds q x)
    (hfinite : x.isFinite = true) (hy : y.isFinite = true) : |x.value - q| ≤ |y.value - q| := by
  cases h with
  | int n =>
      have hexact : (n : ℚ) = Binary64.signed (n < 0) (n.natAbs * 10 ^ (0 : Int)) := by
        rw [zpow_zero, mul_one, Binary64.signed_natAbs]
      rw [Binary64.ofInt_eq_ofDecimal] at hfinite ⊢
      rw [hexact]
      exact Binary64.abs_value_ofDecimal_sub_le hfinite hy
  | float x =>
      rw [sub_self, abs_zero]
      exact abs_nonneg _
  | decimal neg n e => exact Binary64.abs_value_ofDecimal_sub_le hfinite hy

/-- Numbers mean the same as cells and as texts. -/
theorem numberKept {d : Datum} {q : ℚ} {x : Binary64} (h : d.Rounds q x)
    (hfinite : x.isFinite = true) : NumberKept d q x := by
  have hnumeral := isNumeralOf_cellText h hfinite
  have hwords : Binary64.IsNumeralOf (words (.number x)) x := Binary64.isNumeralOf_text hfinite
  constructor
  case nearest => exact fun y hy => abs_value_sub_le h hfinite hy
  case value => exact ofDatum_of_rounds h hfinite
  case key => exact sortKey_of_isNumeralOf hnumeral
  case read => exact hwords.number?
  case untimed =>
    exact ⟨readTimestamp_of_isNumeralOf hnumeral, readTimestamp_of_isNumeralOf hwords⟩

/-- An integer halfway between two doubles, the least subnormal, and a decimal with a trailing
zero. -/
theorem numberKept_rounded :
    NumberKept (.int 9007199254740993) (9007199254740993 : Int) (.ofInt 9007199254740993) ∧
      NumberKept (.float (.ofDecimal true 5 (-324))) (Binary64.ofDecimal true 5 (-324)).value
        (.ofDecimal true 5 (-324)) ∧
      NumberKept (.decimal (.finite false 250 (-2)))
        (Binary64.signed false ((250 : Nat) * 10 ^ (-2 : Int))) (.ofDecimal false 250 (-2)) :=
  ⟨numberKept (.int _) (by decide +kernel), numberKept (.float _) (by decide +kernel),
    numberKept (.decimal false 250 (-2)) (by decide +kernel)⟩

end Value

end TableQuery
