import TableQuery.Calendar.Timestamp
import TableQuery.Proofs.Text.Digits

/-!
# Printed moments

The text of a timestamp has its fields from the year down to the fraction, each in a fixed number
of digits with marks between them. So the texts are in the order of the moments.
-/

namespace TableQuery.Calendar

open TableQuery.Text

theorem compare_same_cons {α : Type} [Ord α] [Std.ReflOrd α] (c : α) (s t : List α) :
    compare (c :: s) (c :: t) = compare s t := by
  rw [List.compare_cons_cons, Std.ReflOrd.compare_self, Ordering.eq_then]

namespace Date

variable (d e : Date)

theorem year_lt : d.year < 10 ^ 4 := by
  obtain ⟨-, h, -⟩ := d.isDay
  omega

theorem month_lt : d.month < 10 ^ 2 := by
  obtain ⟨-, -, -, h, -⟩ := d.isDay
  omega

theorem day_lt : d.day < 10 ^ 2 := by
  obtain ⟨-, -, -, -, -, h⟩ := d.isDay
  have := daysInMonth_le d.year d.month
  omega

theorem length_chars : d.chars.length = 10 := by
  rw [chars, List.length_append, List.length_cons, List.length_append, List.length_cons,
    length_padded d.year_lt, length_padded d.month_lt, length_padded d.day_lt]

theorem forall_mem_chars {P : Char → Prop} (hdigit : ∀ c, isAsciiDigit c = true → P c)
    (hhyphen : P '-') : ∀ c ∈ d.chars, P c := by
  have hpadded : ∀ width n, ∀ c ∈ padded width n, P c := fun _ _ c hc =>
    hdigit c (isAsciiDigit_of_mem_padded hc)
  simp only [chars, List.forall_mem_append, List.forall_mem_cons]
  exact ⟨hpadded _ _, hhyphen, hpadded _ _, hhyphen, hpadded _ _⟩

theorem endsInDigit_chars : EndsInDigit d.chars :=
  ((((endsInDigit_padded d.day_lt).cons '-').append _).cons '-').append _

theorem compare_chars : compare d.chars e.chars = compare d.index e.index := by
  have hday : ∀ d : Date, d.day < 100 := fun d => d.day_lt
  have hrest : ∀ d : Date, d.month * 100 + d.day < 10000 := by
    intro d
    have hmonth : d.month < 100 := d.month_lt
    have := hday d
    omega
  have hyear := (length_padded d.year_lt).trans (length_padded e.year_lt).symm
  have hmonth := (length_padded d.month_lt).trans (length_padded e.month_lt).symm
  calc compare d.chars e.chars
      = (compare d.year e.year).then ((compare d.month e.month).then (compare d.day e.day)) := by
        rw [chars, chars, compare_append hyear, compare_padded d.year_lt e.year_lt,
          compare_same_cons, compare_append hmonth, compare_padded d.month_lt e.month_lt,
          compare_same_cons, compare_padded d.day_lt e.day_lt]
    _ = compare d.index e.index := by
        rw [← compare_mul_add (hday d) (hday e), ← compare_mul_add (hrest d) (hrest e), index, index,
          Nat.add_assoc, Nat.add_assoc]

end Date

theorem compare_fractionText {n m : Nat} (hn : n < 10 ^ 6) (hm : m < 10 ^ 6) :
    compare (fractionText n) (fractionText m) = compare n m := by
  rcases Nat.eq_zero_or_pos n with rfl | hn0
  · rcases Nat.eq_zero_or_pos m with rfl | hm0
    · rfl
    · rw [compare_lt_iff_lt.2 hm0, fractionText, if_pos rfl, fractionText,
        if_neg (Nat.ne_of_gt hm0)]
      rfl
  · rcases Nat.eq_zero_or_pos m with rfl | hm0
    · rw [compare_gt_iff_gt.2 hn0, fractionText, if_neg (Nat.ne_of_gt hn0), fractionText,
        if_pos rfl]
      rfl
    · rw [fractionText, if_neg (Nat.ne_of_gt hn0), fractionText, if_neg (Nat.ne_of_gt hm0),
        compare_same_cons, compare_padded hn hm]

theorem lt_hundred_of_lt_sixty {n : Nat} (h : n < 60) : n < 10 ^ 2 :=
  Nat.lt_trans h (by decide)

namespace TimeOfDay

variable (t u : TimeOfDay)

theorem hour_lt : t.hour < 10 ^ 2 := by
  have h : t.micros < 86400000000 := t.lt_day
  rw [hour]
  omega

theorem minute_lt : t.minute < 60 := Nat.mod_lt _ (by decide)

theorem second_lt : t.second < 60 := Nat.mod_lt _ (by decide)

theorem micro_lt : t.micro < 10 ^ 6 := Nat.mod_lt _ (by decide)

theorem micros_eq : t.micros = ((t.hour * 60 + t.minute) * 60 + t.second) * 10 ^ 6 + t.micro := by
  rw [hour, minute, second, micro]
  omega

theorem length_chars : t.chars.length = if t.micro = 0 then 8 else 15 := by
  rw [chars, List.length_append, List.length_cons, List.length_append, List.length_cons,
    List.length_append, length_padded t.hour_lt, length_padded (lt_hundred_of_lt_sixty t.minute_lt),
    length_padded (lt_hundred_of_lt_sixty t.second_lt), fractionText]
  split_ifs
  · rfl
  · rw [List.length_cons, length_padded t.micro_lt]

theorem forall_mem_chars {P : Char → Prop} (hdigit : ∀ c, isAsciiDigit c = true → P c)
    (hcolon : P ':') (hpoint : P '.') : ∀ c ∈ t.chars, P c := by
  have hpadded : ∀ width n, ∀ c ∈ padded width n, P c := fun _ _ c hc =>
    hdigit c (isAsciiDigit_of_mem_padded hc)
  have hfraction : ∀ c ∈ fractionText t.micro, P c := by
    rw [fractionText]
    split_ifs
    · exact List.forall_mem_nil _
    · exact List.forall_mem_cons.2 ⟨hpoint, hpadded _ _⟩
  simp only [chars, List.forall_mem_append, List.forall_mem_cons]
  exact ⟨hpadded _ _, hcolon, hpadded _ _, hcolon, hpadded _ _, hfraction⟩

theorem endsInDigit_seconds : EndsInDigit (padded 2 t.second ++ fractionText t.micro) := by
  rw [fractionText]
  split_ifs
  · rw [List.append_nil]
    exact endsInDigit_padded (lt_hundred_of_lt_sixty t.second_lt)
  · exact ((endsInDigit_padded t.micro_lt).cons '.').append _

theorem endsInDigit_chars : EndsInDigit t.chars :=
  (((t.endsInDigit_seconds.cons ':').append _).cons ':').append _

theorem compare_chars : compare t.chars u.chars = compare t.micros u.micros := by
  have hminute_t := lt_hundred_of_lt_sixty t.minute_lt
  have hminute_u := lt_hundred_of_lt_sixty u.minute_lt
  have hsecond_t := lt_hundred_of_lt_sixty t.second_lt
  have hsecond_u := lt_hundred_of_lt_sixty u.second_lt
  have hhour := (length_padded t.hour_lt).trans (length_padded u.hour_lt).symm
  have hminute := (length_padded hminute_t).trans (length_padded hminute_u).symm
  have hsecond := (length_padded hsecond_t).trans (length_padded hsecond_u).symm
  calc compare t.chars u.chars
      = (compare t.hour u.hour).then ((compare t.minute u.minute).then
          ((compare t.second u.second).then (compare t.micro u.micro))) := by
        rw [chars, chars, compare_append hhour, compare_padded t.hour_lt u.hour_lt,
          compare_same_cons, compare_append hminute, compare_padded hminute_t hminute_u,
          compare_same_cons, compare_append hsecond, compare_padded hsecond_t hsecond_u,
          compare_fractionText t.micro_lt u.micro_lt]
    _ = compare t.micros u.micros := by
        rw [micros_eq t, micros_eq u, compare_mul_add t.micro_lt u.micro_lt,
          compare_mul_add t.second_lt u.second_lt, compare_mul_add t.minute_lt u.minute_lt,
          Ordering.then_assoc, Ordering.then_assoc]

end TimeOfDay

namespace Offset

variable (o : Offset)

/-- The distance from universal time, as a time of day. -/
def size : TimeOfDay := ⟨o.micros.natAbs, o.lt_day⟩

theorem chars_eq : o.chars = (if o.micros < 0 then '-' else '+') :: (padded 2 o.size.hour ++ ':' ::
    (padded 2 o.size.minute ++ if o.size.second = 0 ∧ o.size.micro = 0 then []
      else ':' :: (padded 2 o.size.second ++ fractionText o.size.micro))) := rfl

theorem endsInDigit_chars : EndsInDigit o.chars := by
  rw [chars_eq]
  refine EndsInDigit.cons (EndsInDigit.append (EndsInDigit.cons ?_ _) _) _
  by_cases hshort : o.size.second = 0 ∧ o.size.micro = 0
  · rw [if_pos hshort, List.append_nil]
    exact endsInDigit_padded (lt_hundred_of_lt_sixty o.size.minute_lt)
  · rw [if_neg hshort]
    exact (o.size.endsInDigit_seconds.cons ':').append _

end Offset

namespace Timestamp

variable (t u : Timestamp)

theorem endsInDigit_chars (sep : Char) : EndsInDigit (t.chars sep) :=
  (t.time.endsInDigit_chars.cons sep).append _

theorem foldChar_of_mem_chars : ∀ c ∈ t.chars ' ', foldChar c = [c] := by
  rw [chars, List.forall_mem_append, List.forall_mem_cons]
  exact ⟨t.date.forall_mem_chars foldChar_of_isAsciiDigit (by decide), by decide,
    t.time.forall_mem_chars foldChar_of_isAsciiDigit (by decide) (by decide)⟩

/-- The texts of timestamps are in the order of the moments. -/
theorem compareFold_text : compareFold t.text u.text = compare t u := by
  have hdate := t.date.length_chars.trans u.date.length_chars.symm
  rw [compareFold, text, text, fold_ofList t.foldChar_of_mem_chars,
    fold_ofList u.foldChar_of_mem_chars, chars, chars, compare_append hdate, compare_same_cons,
    Date.compare_chars, TimeOfDay.compare_chars, compare, index, index,
    compare_mul_add t.time.lt_day u.time.lt_day]

end Timestamp

end TableQuery.Calendar
