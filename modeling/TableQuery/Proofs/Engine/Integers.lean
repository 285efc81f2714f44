import TableQuery.Proofs.Engine.Answers
import TableQuery.Proofs.Value.Finite

/-!
# Integers in the records of an answer

A record holds the integer of 53 bits with zeros behind them that is nearest to the stored one. So
an integer is kept when it is of this form, in particular up to `2 ^ 53`, and integers that are
rounded alike are one value.
-/

namespace TableQuery

open AnswerOf (datum?)

open Binary64 (Representable roundInt ofInt)

namespace Answer

theorem record_of_toResultSet {a : Answer} {result : ResultSet} {n : Int}
    (hfinite : (ofInt n).isFinite = true) (h : a.toResultSet = .ok result) :
    List.Forall₂ (fun data record => ∀ column, datum? a.columns data column = some (.int n) →
      ∀ p, (column, p) ∈ record ↔ p = .int (roundInt n)) a.rows result.records := by
  rw [ResultSet.records, List.forall₂_map_right_iff]
  refine (AnswerOf.forall₂_rows h).imp fun data row hrow column hdatum p => ?_
  have hcell := hrow column
  rw [hdatum] at hcell
  generalize hget : row.get? column = cell at hcell
  cases hcell with
  | some hvalue =>
      rw [Value.ofDatum_int hfinite] at hvalue
      cases hvalue
      rw [Row.mem_record_iff, hget]
      simp [Value.primitive_ofInt hfinite, eq_comm]

/-- Integers of 64 bits as values, and in the records of an answer. -/
structure RoundsIntegers (m n : Int64) (a : Answer) : Prop where
  value : Value.ofDatum (.int n.toInt) = .ok (.number (ofInt n.toInt))
  primitive : (Value.number (ofInt n.toInt)).primitive = .int (roundInt n.toInt)
  nearest : ∀ w : Int, Representable w.natAbs →
    |roundInt n.toInt - n.toInt| ≤ |w - n.toInt|
  error : 2 ^ 53 * |roundInt n.toInt - n.toInt| ≤ |n.toInt|
  exact : (Value.number (ofInt n.toInt)).primitive = .int n.toInt ↔ Representable n.toInt.natAbs
  small : |n.toInt| ≤ 2 ^ 53 → Representable n.toInt.natAbs
  equal : Value.ofDatum (.int m.toInt) = Value.ofDatum (.int n.toInt) ↔
    roundInt m.toInt = roundInt n.toInt
  same : (Value.number (ofInt m.toInt)).same (.number (ofInt n.toInt)) = true ↔
    roundInt m.toInt = roundInt n.toInt
  distinct : Representable m.toInt.natAbs → Representable n.toInt.natAbs → m ≠ n →
    Value.ofDatum (.int m.toInt) ≠ Value.ofDatum (.int n.toInt)
  ordered : m ≤ n → roundInt m.toInt ≤ roundInt n.toInt
  record : ∀ result, a.toResultSet = .ok result →
    List.Forall₂ (fun data record => ∀ column, datum? a.columns data column = some (.int n.toInt) →
      ∀ p, (column, p) ∈ record ↔ p = .int (roundInt n.toInt)) a.rows result.records
  read : (∀ data ∈ a.rows, ∀ named ∈ a.columns.zip data, ∃ k : Int64, named.2 = .int k.toInt) →
    ∃ result, a.toResultSet = .ok result

/-- A stored integer is rounded to 53 bits in every record, and nothing else happens to it. -/
theorem roundsIntegers (m n : Int64) (a : Answer) : RoundsIntegers m n a := by
  have hm := Binary64.isFinite_ofInt_int64 m
  have hn := Binary64.isFinite_ofInt_int64 n
  have hequal : Value.ofDatum (.int m.toInt) = Value.ofDatum (.int n.toInt) ↔
      roundInt m.toInt = roundInt n.toInt := by
    rw [Value.ofDatum_int hm, Value.ofDatum_int hn, Except.ok.injEq, Value.number.injEq]
    exact Binary64.ofInt_eq_ofInt_iff hm hn
  constructor
  case value => exact Value.ofDatum_int hn
  case primitive => exact Value.primitive_ofInt hn
  case nearest => exact fun w hw => Binary64.abs_roundInt_sub_le hw
  case error => exact Binary64.mul_abs_roundInt_sub_le n.toInt
  case exact =>
    rw [Value.primitive_ofInt hn, Primitive.int.injEq]
    exact Binary64.roundInt_eq_self_iff
  case small => exact Binary64.representable_of_le
  case equal => exact hequal
  case same => exact Binary64.same_ofInt_iff hm hn
  case distinct =>
    intro hm hn hne heq
    rw [hequal, Binary64.roundInt_eq_self_iff.2 hm, Binary64.roundInt_eq_self_iff.2 hn] at heq
    exact hne (Int64.toInt_inj.1 heq)
  case ordered => exact fun h => Binary64.roundInt_mono (Int64.le_iff_toInt_le.1 h)
  case record => exact fun result h => record_of_toResultSet hn h
  case read =>
    intro h
    rw [toResultSet, AnswerOf.exists_read_iff]
    intro data hdata named hnamed
    obtain ⟨k, hk⟩ := h data hdata named hnamed
    exact ⟨_, hk ▸ Value.ofDatum_int (Binary64.isFinite_ofInt_int64 k)⟩

/-- The first integer that is not kept: it is read as its neighbour, in values and in records. -/
theorem not_keepsIntegers :
    (¬∀ n : Int64, ∃ v, Value.ofDatum (.int n.toInt) = .ok v ∧ v.primitive = .int n.toInt) ∧
    (¬∀ m n : Int64, m ≠ n → Value.ofDatum (.int m.toInt) ≠ Value.ofDatum (.int n.toInt)) ∧
    ¬∀ (a : Answer) (result : ResultSet) (n : Int64), a.toResultSet = .ok result →
      List.Forall₂ (fun data record => ∀ column,
        datum? a.columns data column = some (.int n.toInt) → (column, .int n.toInt) ∈ record)
        a.rows result.records := by
  have hround : roundInt (9007199254740993 : Int64).toInt = (9007199254740992 : Int64).toInt := by
    decide +kernel
  have hkept : roundInt (9007199254740992 : Int64).toInt = (9007199254740992 : Int64).toInt := by
    decide +kernel
  have hfinite := Binary64.isFinite_ofInt_int64 9007199254740993
  have hvalue := Value.ofDatum_int hfinite
  refine ⟨fun h => ?_, fun h => ?_, fun h => ?_⟩
  · obtain ⟨v, hv, hprimitive⟩ := h 9007199254740993
    rw [hvalue] at hv
    cases hv
    rw [Value.primitive_ofInt hfinite, hround] at hprimitive
    revert hprimitive
    decide
  · refine h 9007199254740993 9007199254740992 (by decide) ?_
    have hfinite' := Binary64.isFinite_ofInt_int64 9007199254740992
    rw [hvalue, Value.ofDatum_int hfinite',
      (Binary64.ofInt_eq_ofInt_iff hfinite hfinite').2 (hround.trans hkept.symm)]
  · let a : Answer := ⟨["id"], [[.int (9007199254740993 : Int64).toInt]]⟩
    have hread : ∃ result, a.toResultSet = .ok result := by
      rw [toResultSet, AnswerOf.exists_read_iff]
      simpa [a] using ⟨_, hvalue⟩
    obtain ⟨result, hresult⟩ := hread
    have hrecords := h a result 9007199254740993 hresult
    have hrounded := record_of_toResultSet hfinite hresult
    generalize result.records = records at hrecords hrounded
    obtain ⟨record, rest, hkeeps, -, rfl⟩ := List.forall₂_cons_left_iff.1 hrecords
    obtain ⟨hrounds, -⟩ := List.forall₂_cons.1 hrounded
    have hprimitive := (hrounds "id" rfl _).1 (hkeeps "id" rfl)
    rw [hround] at hprimitive
    revert hprimitive
    decide

end Answer

end TableQuery
