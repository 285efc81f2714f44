import TableQuery.Proofs.Binary64.Order
import TableQuery.Value.Basic

/-!
# Equality of values

`same` is symmetric and transitive, and it holds of every value and itself but the
undefined number. `filing?` picks one value out of those that are the same: the positive
zero for both zeros, every other value for itself, and none for a missing value.
-/

namespace TableQuery

namespace Binary64

theorem natAbs_rank_infinite (neg : Bool) : (rank (.infinite neg)).natAbs = limit := by
  cases neg with
  | false => rw [rank, Int.natAbs_natCast]
  | true => rw [rank, Int.natAbs_neg, Int.natAbs_natCast]

theorem rank_finite_ne_rank_infinite (s t : Bool) (n : Nat) (hn : Fits n) :
    rank (.finite s n hn) ≠ rank (.infinite t) := by
  have hbound := natAbs_rank_lt_limit s n hn
  intro h
  rw [h, natAbs_rank_infinite] at hbound
  exact absurd hbound (Nat.lt_irrefl limit)

/-- But for the two zeros, numbers of one rank are one number. -/
theorem eq_of_rank_eq {a b : Binary64} (ha : a.isNan = false) (hb : b.isNan = false)
    (hzero : a.rank ≠ 0) (h : a.rank = b.rank) : a = b := by
  cases a with
  | nan => exact absurd ha (by simp [isNan])
  | infinite s =>
      cases b with
      | nan => exact absurd hb (by simp [isNan])
      | infinite t =>
          have hlimit : (0 : Int) < limit := Int.natCast_pos.2 limit_pos
          cases s <;> cases t <;> simp only [rank] at h <;> first | rfl | omega
      | finite t m hm => exact absurd h.symm (rank_finite_ne_rank_infinite t s m hm)
  | finite s n hn =>
      cases b with
      | nan => exact absurd hb (by simp [isNan])
      | infinite t => exact absurd h (rank_finite_ne_rank_infinite s t n hn)
      | finite t m hm =>
          have hst : s = t ∧ n = m := by
            cases s <;> cases t <;> simp only [rank] at h hzero <;> constructor <;>
              first | rfl | omega
          obtain ⟨rfl, rfl⟩ := hst
          rfl

end Binary64

namespace Value

/-- The undefined number. -/
def isNan : Value → Bool
  | .number x => x.isNan
  | _ => false

/-- The value under which the rows with a value are counted, none for a missing one. -/
def filing? : Value → Option Value
  | .null => none
  | .number x => some (.number (if x.rank = 0 ∧ x.isNan = false then .zero else x))
  | v => some v

theorem same_trans {a b c : Value} (hab : a.same b = true) (hbc : b.same c = true) :
    a.same c = true := by
  cases a <;> cases b <;> cases c <;> simp_all [same, Binary64.same]

theorem same_congr {a b : Value} (h : a.same b = true) (c : Value) : a.same c = b.same c := by
  rw [Bool.eq_iff_iff]
  constructor
  · intro hac
    exact same_trans ((same_comm b a).trans h) hac
  · exact same_trans h

theorem same_number_iff {x y : Binary64} (hx : x.isNan = false) (hy : y.isNan = false) :
    same (.number x) (.number y) = true ↔ filing? (.number x) = filing? (.number y) := by
  rw [same, Binary64.same, hx, hy]
  simp only [filing?, hx, hy, and_true, Option.some.injEq, number.injEq, Bool.not_false,
    Bool.true_and, beq_iff_eq]
  by_cases hx0 : x.rank = 0
  · by_cases hy0 : y.rank = 0
    · simp [hx0, hy0]
    · rw [if_pos hx0, if_neg hy0]
      constructor
      · intro h
        exact absurd (h.symm.trans hx0) hy0
      · rintro rfl
        exact absurd rfl hy0
  · constructor
    · intro h
      rw [Binary64.eq_of_rank_eq hx hy hx0 h]
    · intro h
      by_cases hy0 : y.rank = 0
      · rw [if_neg hx0, if_pos hy0] at h
        exact absurd (by rw [h]; rfl) hx0
      · rw [if_neg hx0, if_neg hy0] at h
        rw [h]

/-- Values that are no undefined number are the same when they are counted together. -/
theorem same_iff_filing?_eq {a b : Value} (ha : a.isNan = false) (hb : b.isNan = false) :
    a.same b = true ↔ a.filing? = b.filing? := by
  cases a with
  | null => cases b <;> simp [same, filing?]
  | text s => cases b <;> simp [same, filing?]
  | timestamp t => cases b <;> simp [same, filing?]
  | number x =>
      cases b with
      | number y => exact same_number_iff ha hb
      | _ => simp [same, filing?]

end Value

end TableQuery
