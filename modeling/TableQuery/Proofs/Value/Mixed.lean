import TableQuery.Proofs.Calendar.Printed
import TableQuery.Proofs.Value.Order

/-!
# Values of several kinds

Values of two kinds are ordered by their words, and so are timestamps and texts among themselves.
Only numbers have an order that differs from that of their words: two comes before sixteen, but
`16` before `2`. A value whose words stand between those of two such numbers closes a circle, and
where no such value is, the order is total.
-/

namespace TableQuery

open TableQuery.Text

namespace Binary64

theorem text_of_rank_eq_zero {x : Binary64} (hx : x.isNan = false) (h : x.rank = 0) :
    x.text = intText 0 := by
  cases x with
  | nan => cases hx
  | infinite neg =>
      have := natAbs_rank_infinite neg
      rw [h, Int.natAbs_zero] at this
      exact absurd this (Nat.ne_of_lt limit_pos)
  | finite neg n hn =>
      obtain rfl : n = 0 := by
        cases neg with
        | false => exact Int.natCast_eq_zero.1 h
        | true => exact Int.natCast_eq_zero.1 (Int.neg_eq_zero.1 h)
      have hint : toInt? (.finite neg 0 hn) = some 0 := by
        cases neg <;> simp [toInt?]
      rw [text, hint]
      rfl

/-- Level numbers have the same text. -/
theorem text_eq_of_compare_eq {x y : Binary64} (hx : x.isNan = false) (hy : y.isNan = false)
    (h : compare x y = .eq) : x.text = y.text := by
  rw [compare_eq_compare_rank hx hy, compare_eq_iff_eq] at h
  by_cases hzero : x.rank = 0
  · rw [text_of_rank_eq_zero hx hzero, text_of_rank_eq_zero hy (h ▸ hzero)]
  · rw [eq_of_rank_eq hx hy hzero h]

end Binary64

namespace Value

/-- The words of a value that is no number stand between those of two numbers in the other
order. -/
structure Entangles (v : Value) (x y : Binary64) : Prop where
  kind_ne : v.kind ≠ .number
  numbers_lt : compare (.number x) (.number y) = .lt
  above : (compareFold y.text v.words).isLE
  below : (compareFold v.words x.text).isLE

/-- But for two numbers, values that are there are ordered by their words. -/
theorem compare_eq_compareFold {a b : Value} (ha : a ≠ .null) (hb : b ≠ .null)
    (h : a.kind ≠ .number ∨ b.kind ≠ .number) : compare a b = compareFold a.words b.words := by
  cases a with
  | null => exact absurd rfl ha
  | text s =>
      cases b with
      | null => exact absurd rfl hb
      | _ => rfl
  | number x =>
      cases b with
      | null => exact absurd rfl hb
      | number y => simp [kind] at h
      | _ => rfl
  | timestamp t =>
      cases b with
      | null => exact absurd rfl hb
      | timestamp u => exact (t.compareFold_text u).symm
      | _ => rfl

theorem eq_null_of_isLE {a : Value} (h : (compare a .null).isLE) : a = .null := by
  cases a <;> first | rfl | cases h

theorem exists_of_kind_eq {v : Value} (h : v.kind = .number) : ∃ x, v = .number x := by
  cases v with
  | number x => exact ⟨x, rfl⟩
  | _ => cases h

theorem compareFold_isLE_of_not {a b : String} (h : ¬(compareFold a b).isLE) :
    (compareFold b a).isLE := by
  rw [← compareFold_swap]
  revert h
  cases compareFold a b <;> decide

section Numbers

variable {x y : Binary64} {v : Value} (hx : x.isNan = false) (hy : y.isNan = false)
  (hkind : v.kind ≠ .number) (hle : (compare (.number x) (.number y)).isLE)
  (hv : ¬v.Entangles x y)
include hx hy hkind hle hv

theorem text_eq_of_between (habove : (compareFold y.text v.words).isLE)
    (hbelow : (compareFold v.words x.text).isLE) : x.text = y.text := by
  cases hxy : compare (.number x) (.number y) with
  | lt => exact absurd ⟨hkind, hxy, habove, hbelow⟩ hv
  | eq => exact Binary64.text_eq_of_compare_eq hx hy hxy
  | gt =>
      rw [hxy] at hle
      cases hle

theorem isLE_words_of_isLE (h : (compareFold y.text v.words).isLE) :
    (compareFold x.text v.words).isLE := by
  by_contra hnot
  rw [text_eq_of_between hx hy hkind hle hv h (compareFold_isLE_of_not hnot)] at hnot
  exact hnot h

theorem words_isLE_of_isLE (h : (compareFold v.words x.text).isLE) :
    (compareFold v.words y.text).isLE := by
  by_contra hnot
  rw [← text_eq_of_between hx hy hkind hle hv (compareFold_isLE_of_not hnot) h] at hnot
  exact hnot h

end Numbers

theorem numbers_isLE_of_words {x y : Binary64} {v : Value} (hkind : v.kind ≠ .number)
    (hv : ¬v.Entangles y x) (habove : (compareFold x.text v.words).isLE)
    (hbelow : (compareFold v.words y.text).isLE) : (compare (.number x) (.number y)).isLE := by
  rw [← compare_swap]
  cases hyx : compare (.number y) (.number x) with
  | lt => exact absurd ⟨hkind, hyx, habove, hbelow⟩ hv
  | eq => rfl
  | gt => rfl

/-- No value of a list stands between two numbers of it whose words are in the other order. -/
def Untangled (values : List Value) : Prop :=
  ∀ v ∈ values, ∀ x y, .number x ∈ values → .number y ∈ values → ¬v.Entangles x y

namespace Untangled

variable {values : List Value} (h : Untangled values) (hnan : ∀ v ∈ values, v.isNan = false)
  {a b c : Value} (ha : a ∈ values) (hb : b ∈ values) (hc : c ∈ values)
include h hnan ha hb hc

theorem isLE_trans_of_number (hb0 : b ≠ .null) (hc0 : c ≠ .null) (hka : a.kind = .number)
    (hab : (compare a b).isLE) (hbc : (compare b c).isLE) : (compare a c).isLE := by
  obtain ⟨x, rfl⟩ := exists_of_kind_eq hka
  by_cases hkb : b.kind = .number
  · obtain ⟨y, rfl⟩ := exists_of_kind_eq hkb
    by_cases hkc : c.kind = .number
    · exact isLE_trans_of_kind_eq (b := .number y) rfl hkc.symm (hnan _ ha) (hnan _ hb)
        (hnan _ hc) hab hbc
    · rw [compare_eq_compareFold hb0 hc0 (.inr hkc)] at hbc
      rw [compare_eq_compareFold (by simp) hc0 (.inr hkc)]
      exact isLE_words_of_isLE (hnan _ ha) (hnan _ hb) hkc hab (h c hc x y ha hb) hbc
  · rw [compare_eq_compareFold (by simp) hb0 (.inr hkb)] at hab
    rw [compare_eq_compareFold hb0 hc0 (.inl hkb)] at hbc
    by_cases hkc : c.kind = .number
    · obtain ⟨z, rfl⟩ := exists_of_kind_eq hkc
      exact numbers_isLE_of_words hkb (h b hb z x hc ha) hab hbc
    · rw [compare_eq_compareFold (by simp) hc0 (.inr hkc)]
      exact compareFold_isLE_trans hab hbc

theorem isLE_trans_of_words (ha0 : a ≠ .null) (hb0 : b ≠ .null) (hc0 : c ≠ .null)
    (hka : a.kind ≠ .number) (hab : (compare a b).isLE) (hbc : (compare b c).isLE) :
    (compare a c).isLE := by
  rw [compare_eq_compareFold ha0 hb0 (.inl hka)] at hab
  rw [compare_eq_compareFold ha0 hc0 (.inl hka)]
  by_cases hkbc : b.kind ≠ .number ∨ c.kind ≠ .number
  · rw [compare_eq_compareFold hb0 hc0 hkbc] at hbc
    exact compareFold_isLE_trans hab hbc
  · rw [not_or, not_not, not_not] at hkbc
    obtain ⟨x, rfl⟩ := exists_of_kind_eq hkbc.1
    obtain ⟨y, rfl⟩ := exists_of_kind_eq hkbc.2
    exact words_isLE_of_isLE (hnan _ hb) (hnan _ hc) hka hbc (h a ha x y hb hc) hab

theorem isLE_trans (hab : (compare a b).isLE) (hbc : (compare b c).isLE) :
    (compare a c).isLE := by
  by_cases hc0 : c = .null
  · subst hc0
    rwa [eq_null_of_isLE hbc] at hab
  by_cases hb0 : b = .null
  · subst hb0
    rwa [eq_null_of_isLE hab]
  by_cases ha0 : a = .null
  · subst ha0
    cases c <;> rfl
  by_cases hka : a.kind = .number
  · exact h.isLE_trans_of_number hnan ha hb hc hb0 hc0 hka hab hbc
  · exact h.isLE_trans_of_words hnan ha hb hc ha0 hb0 hc0 hka hab hbc

end Untangled

/-- The order is total on values none of which is undefined exactly when no value among them
stands, by its words, between two numbers whose words are in the other order. -/
theorem isTotalPreorder_iff_untangled {values : List Value}
    (hnan : ∀ v ∈ values, v.isNan = false) : IsTotalPreorder values ↔ Untangled values := by
  constructor
  · intro h v hv x y hx hy hentangled
    have hnull : v ≠ .null := by
      rintro rfl
      have habove := hentangled.above
      rw [← compareFold_swap, words, compareFold_empty y.text_ne_empty] at habove
      cases habove
    have hyv : (compare (.number y) v).isLE := by
      rw [compare_eq_compareFold (by simp) hnull (.inr hentangled.kind_ne)]
      exact hentangled.above
    have hvx : (compare v (.number x)).isLE := by
      rw [compare_eq_compareFold hnull (by simp) (.inl hentangled.kind_ne)]
      exact hentangled.below
    have hyx := h.trans _ hy v hv _ hx hyv hvx
    rw [← compare_swap, hentangled.numbers_lt] at hyx
    cases hyx
  · intro h
    constructor
    case refl => exact fun a _ => compare_self a
    case swap => exact fun a _ b _ => (compare_swap a b).symm
    case trans => exact fun a ha b hb c hc => h.isLE_trans hnan ha hb hc
    case numbers => exact fun x y _ _ hx hy => Binary64.compare_eq_compare_value hx hy

/-- Two, sixteen and the text `17`: each comes before the next and the last before the first. -/
def circle : List Value :=
  [.number (.finite false (twoPow 1075) (Binary64.fits_twoPow (by decide))),
    .number (.finite false (twoPow 1078) (Binary64.fits_twoPow (by decide))), .text "17"]

theorem not_isTotalPreorder_circle :
    (∀ v ∈ circle, v.isNan = false) ∧ ¬IsTotalPreorder circle := by
  have hnan : ∀ v ∈ circle, v.isNan = false := by decide
  refine ⟨hnan, fun h => ?_⟩
  refine (isTotalPreorder_iff_untangled hnan).1 h (.text "17") (by simp [circle]) _ _
    List.mem_cons_self (List.mem_cons_of_mem _ List.mem_cons_self) ?_
  exact ⟨by decide, by decide +kernel, by decide +kernel, by decide +kernel⟩

theorem not_isLE_trans : ¬∀ a b c : Value, a.isNan = false → b.isNan = false →
    c.isNan = false → (compare a b).isLE → (compare b c).isLE → (compare a c).isLE := by
  intro h
  have hwrong : (compare circle[0] circle[2]).isLE :=
    h circle[0] circle[1] circle[2] rfl rfl rfl (by decide +kernel) (by decide +kernel)
  revert hwrong
  decide +kernel

end Value

end TableQuery
