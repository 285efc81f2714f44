import TableQuery.Proofs.Binary64.Integer
import TableQuery.Proofs.Calendar.Bounds
import TableQuery.Proofs.Reading
import TableQuery.Value.Basic

/-!
# Values are finite

Three kinds of delivered values have no counterpart: integers that would be rounded beyond the
finite range, the signaling undefined decimal, and moments of universal time outside the calendar.
Every other one has a counterpart, unless it is of another type and cannot be printed. A number
among the counterparts is finite, so that its record and its words keep it.
-/

namespace TableQuery

open TableQuery.Calendar

open Binary64 (roundInt ofInt)

namespace Value

/-- A number, if it is one, is finite. -/
def IsFinite (v : Value) : Prop :=
  ∀ x, v = .number x → x.isFinite = true

theorem ofNative_int {n : Int} (h : (ofInt n).isFinite = true) :
    ofNative (.int n) = .ok (.number (ofInt n)) := by
  rw [ofNative, Binary64.ofInt?, if_pos h]
  rfl

theorem ofDatum_int {n : Int} (h : (ofInt n).isFinite = true) :
    ofDatum (.int n) = .ok (.number (ofInt n)) :=
  ofNative_int h

theorem primitive_ofInt {n : Int} (h : (ofInt n).isFinite = true) :
    (Value.number (ofInt n)).primitive = .int (roundInt n) := by
  rw [primitive, Binary64.toInt?_ofInt h]

example : (Datum.list [.text "a", .int (10 ^ 4300)]).isPrintable = false := by decide +kernel

end Value

/-- A number, if it is one, is finite. -/
def Primitive.IsFinite (p : Primitive) : Prop :=
  ∀ x, p = .float x → x.isFinite = true

namespace Value

/-- A value whose number, if it is one, is finite and stands in records and in words with the value
that it has. -/
structure Shown (v : Value) : Prop where
  finite : v.IsFinite
  primitive : v.primitive.IsFinite
  exact : ∀ x, v = .number x → v.primitive = .float x ∨
    ∃ n : Int, v.primitive = .int n ∧ (n : ℚ) = x.value
  words : ∀ x, v = .number x → ∃ y, Binary64.number? v.words = some y ∧ y.same x = true

theorem IsFinite.shown {v : Value} (h : v.IsFinite) : v.Shown := by
  have hexact : ∀ x, v = .number x → v.primitive = .float x ∨
      ∃ n : Int, v.primitive = .int n ∧ (n : ℚ) = x.value := by
    rintro x rfl
    rw [Value.primitive]
    cases hint : x.toInt? with
    | none => exact .inl rfl
    | some n => exact .inr ⟨n, rfl, (Binary64.value_of_toInt? hint).symm⟩
  constructor
  case finite => exact h
  case primitive =>
    intro x hx
    cases v with
    | number y =>
        rcases hexact y rfl with hfloat | ⟨n, hint, -⟩
        · rw [hfloat, Primitive.float.injEq] at hx
          exact hx ▸ h y rfl
        · rw [hint] at hx
          cases hx
    | _ => cases hx
  case exact => exact hexact
  case words =>
    rintro x rfl
    exact (Binary64.isNumeralOf_text (h x rfl)).number?

end Value

end TableQuery
