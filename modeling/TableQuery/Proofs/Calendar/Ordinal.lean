import Mathlib.Order.Monotone.Basic
import Mathlib.Tactic.SplitIfs
import TableQuery.Calendar.Timestamp
import TableQuery.Proofs.Text.Digits

/-!
# Counting days

The days of a year follow those of the year before, and the days of a month those of the month
before. So counting days and reading a count back are inverse, and later days have larger counts.
-/

namespace TableQuery.Calendar

namespace Date

/-- The number of days of a year. -/
def daysInYear (year : Nat) : Nat :=
  if isLeap year then 366 else 365

theorem isLeap_iff {year : Nat} :
    isLeap year = true ↔ year % 4 = 0 ∧ (year % 100 ≠ 0 ∨ year % 400 = 0) := by
  simp [isLeap]

theorem succ_div_eq (n k : Nat) : (n + 1) / k = n / k + if (n + 1) % k = 0 then 1 else 0 := by
  rw [Nat.succ_div]
  simp only [Nat.dvd_iff_mod_eq_zero]

theorem daysBeforeYear_succ {year : Nat} (h : 1 ≤ year) :
    daysBeforeYear (year + 1) = daysBeforeYear year + daysInYear year := by
  obtain ⟨y, rfl⟩ := Nat.exists_eq_add_of_le' h
  have hcenturies : y / 100 ≤ y / 4 := Nat.div_le_div_left (by decide) (by decide)
  have hcenturies' : (y + 1) / 100 ≤ (y + 1) / 4 := Nat.div_le_div_left (by decide) (by decide)
  have h4 := succ_div_eq y 4
  have h100 := succ_div_eq y 100
  have h400 := succ_div_eq y 400
  have hmod : (y + 1) % 100 = 0 → (y + 1) % 4 = 0 := by omega
  have hmod' : (y + 1) % 400 = 0 → (y + 1) % 100 = 0 := by omega
  simp only [daysBeforeYear, Nat.add_sub_cancel, daysInYear, isLeap_iff]
  generalize (y + 1) / 4 = a, (y + 1) / 100 = b, (y + 1) / 400 = c, (y + 1) % 4 = d,
    (y + 1) % 100 = e, (y + 1) % 400 = f at *
  split_ifs at * <;> omega

theorem daysBeforeYear_le {year later : Nat} (hyear : 1 ≤ year) (h : year ≤ later) :
    daysBeforeYear year ≤ daysBeforeYear later := by
  induction later, h using Nat.le_induction with
  | base => exact Nat.le_refl _
  | succ later h ih =>
      rw [daysBeforeYear_succ (hyear.trans h)]
      exact ih.trans (Nat.le_add_right _ _)

theorem daysBeforeMonth_succ (year : Nat) {month : Nat} (h : 1 ≤ month) :
    daysBeforeMonth year (month + 1) = daysBeforeMonth year month + daysInMonth year month := by
  obtain ⟨m, rfl⟩ := Nat.exists_eq_add_of_le' h
  rw [daysBeforeMonth, daysBeforeMonth, Nat.add_sub_cancel, Nat.add_sub_cancel, List.range_succ,
    List.map_append, List.foldl_append]
  rfl

theorem daysBeforeMonth_le (year : Nat) {month later : Nat} (hmonth : 1 ≤ month)
    (h : month ≤ later) : daysBeforeMonth year month ≤ daysBeforeMonth year later := by
  induction later, h using Nat.le_induction with
  | base => exact Nat.le_refl _
  | succ later h ih =>
      rw [daysBeforeMonth_succ year (hmonth.trans h)]
      exact ih.trans (Nat.le_add_right _ _)

theorem daysBeforeMonth_thirteen (year : Nat) : daysBeforeMonth year 13 = daysInYear year := by
  cases h : isLeap year <;> simp [daysBeforeMonth, daysInYear, daysInMonth, List.range_succ, h]

variable (d : Date)

theorem one_le_year : 1 ≤ d.year := d.isDay.1

theorem one_le_month : 1 ≤ d.month := d.isDay.2.2.1

theorem month_le : d.month ≤ 12 := d.isDay.2.2.2.1

theorem one_le_day : 1 ≤ d.day := d.isDay.2.2.2.2.1

theorem day_le : d.day ≤ daysInMonth d.year d.month := d.isDay.2.2.2.2.2

theorem daysBeforeMonth_add_day_le :
    daysBeforeMonth d.year d.month + d.day ≤ daysInYear d.year := by
  calc daysBeforeMonth d.year d.month + d.day
      ≤ daysBeforeMonth d.year (d.month + 1) := by
        rw [daysBeforeMonth_succ d.year d.one_le_month]
        exact Nat.add_le_add_left d.day_le _
    _ ≤ daysBeforeMonth d.year 13 :=
        daysBeforeMonth_le d.year (Nat.succ_pos _) (Nat.succ_le_succ d.month_le)
    _ = daysInYear d.year := daysBeforeMonth_thirteen d.year

theorem ordinal_le : d.ordinal ≤ daysBeforeYear (d.year + 1) := by
  rw [ordinal, daysBeforeYear_succ d.one_le_year, Nat.add_assoc]
  exact Nat.add_le_add_left d.daysBeforeMonth_add_day_le _

theorem lex_of_index_lt {d e : Date} (h : d.index < e.index) : d.year < e.year ∨
    d.year = e.year ∧ (d.month < e.month ∨ d.month = e.month ∧ d.day < e.day) := by
  have hday := d.day_le.trans (daysInMonth_le d.year d.month)
  have hday' := e.day_le.trans (daysInMonth_le e.year e.month)
  have hmonth := d.month_le
  have hmonth' := e.month_le
  rw [index, index] at h
  omega

/-- Later days have larger counts. -/
theorem ordinal_lt_ordinal {d e : Date} (h : d.index < e.index) : d.ordinal < e.ordinal := by
  have hday := e.one_le_day
  rcases lex_of_index_lt h with hyear | ⟨hyear, hmonth | ⟨hmonth, hday⟩⟩
  · have hle := d.ordinal_le.trans (daysBeforeYear_le d.year.succ_pos hyear)
    rw [ordinal.eq_def e]
    omega
  · have hle := daysBeforeMonth_le e.year d.month.succ_pos hmonth
    have hdays := d.day_le
    rw [Nat.succ_eq_add_one, daysBeforeMonth_succ e.year d.one_le_month, ← hyear] at hle
    rw [ordinal, ordinal, ← hyear]
    omega
  · rw [ordinal, ordinal, hyear, hmonth]
    omega

theorem compare_ordinal (d e : Date) : compare d.ordinal e.ordinal = compare d.index e.index := by
  rcases Nat.lt_trichotomy d.index e.index with hlt | heq | hlt
  · rw [compare_lt_iff_lt.2 hlt, compare_lt_iff_lt.2 (ordinal_lt_ordinal hlt)]
  · rw [index_injective heq, compare_eq_iff_eq.2 rfl, compare_eq_iff_eq.2 rfl]
  · rw [compare_gt_iff_gt.2 hlt, compare_gt_iff_gt.2 (ordinal_lt_ordinal hlt)]

/-- The year of a day counted from zero. -/
def yearOf (days : Nat) : Nat :=
  days / 146097 * 400 + min (days % 146097 / 36524) 3 * 100 +
    (days % 146097 - min (days % 146097 / 36524) 3 * 36524) / 1461 * 4 +
    min ((days % 146097 - min (days % 146097 / 36524) 3 * 36524) % 1461 / 365) 3 + 1

/-- The place in its year of a day counted from zero. -/
def dayOfYear (days : Nat) : Nat :=
  (days % 146097 - min (days % 146097 / 36524) 3 * 36524) % 1461 -
    min ((days % 146097 - min (days % 146097 / 36524) 3 * 36524) % 1461 / 365) 3 * 365

theorem ofOrdinal?_eq {n : Int} (h : 1 ≤ n) :
    ofOrdinal? n =
      of? (yearOf (n - 1).toNat) (monthDay (yearOf (n - 1).toNat) 11 1 (dayOfYear (n - 1).toNat)).1
        (monthDay (yearOf (n - 1).toNat) 11 1 (dayOfYear (n - 1).toNat)).2 := by
  rw [ofOrdinal?, if_neg (Int.not_lt.2 h)]
  rfl

/-- The last of four years, and of four centuries, may be longer by a day. -/
theorem quarter_le {size n b : Nat} (hsize : 0 < size) (hn : n ≤ 4 * size)
    (hb : min (n / size) 3 = b) :
    b ≤ 3 ∧ n = size * b + (n - b * size) ∧ n - b * size ≤ size ∧
      (n - b * size = size → b = 3) := by
  subst hb
  have hdiv := Nat.div_add_mod n size
  have hmod := Nat.mod_lt n hsize
  rcases Nat.lt_or_ge (n / size) 3 with h | h
  · rw [Nat.min_eq_left (Nat.le_of_lt h), Nat.mul_comm]
    rw [Nat.mul_comm] at hdiv
    omega
  · rw [Nat.min_eq_right h]
    have := Nat.mul_le_mul_left size h
    omega

/-- The cycles of 400, 100, 4 years and single years before a day. -/
theorem exists_cycles (days : Nat) : ∃ a b c e f, b ≤ 3 ∧ c ≤ 24 ∧ e ≤ 3 ∧ f ≤ 365 ∧
    (f = 365 → e = 3 ∧ (c = 24 → b = 3)) ∧ days = 146097 * a + 36524 * b + 1461 * c + 365 * e + f ∧
    yearOf days = 400 * a + 100 * b + 4 * c + e + 1 ∧ dayOfYear days = f := by
  have hdays := Nat.div_add_mod days 146097
  have hrest := Nat.mod_lt days (show 0 < 146097 by decide)
  rw [yearOf, dayOfYear]
  generalize days / 146097 = a, days % 146097 = n at *
  generalize hb : min (n / 36524) 3 = b
  obtain ⟨hb3, hn, hcentury, hlast⟩ := quarter_le (by decide) (by omega) hb
  generalize n - b * 36524 = m at *
  have hm := Nat.div_add_mod m 1461
  have hmod := Nat.mod_lt m (show 0 < 1461 by decide)
  generalize m / 1461 = c, m % 1461 = k at *
  generalize he : min (k / 365) 3 = e
  obtain ⟨he3, hk, hyear, hlast'⟩ := quarter_le (by decide) (by omega) he
  generalize k - e * 365 = f at *
  exact ⟨a, b, c, e, f, hb3, by omega, he3, hyear, by omega, by omega, by omega, rfl⟩

/-- The year of a day starts before it and lasts until it is over. -/
theorem daysBeforeYear_yearOf (days : Nat) : 1 ≤ yearOf days ∧
    daysBeforeYear (yearOf days) + dayOfYear days = days ∧
      dayOfYear days < daysInYear (yearOf days) := by
  obtain ⟨a, b, c, e, f, hb, hc, he, hf, hlong, hdays, hyear, hday⟩ := exists_cycles days
  rw [hyear, hday]
  refine ⟨Nat.succ_pos _, ?_, ?_⟩
  · rw [daysBeforeYear, Nat.add_sub_cancel]
    have h4 : (400 * a + 100 * b + 4 * c + e) / 4 = 100 * a + 25 * b + c := by omega
    have h100 : (400 * a + 100 * b + 4 * c + e) / 100 = 4 * a + b := by omega
    have h400 : (400 * a + 100 * b + 4 * c + e) / 400 = a := by omega
    rw [h4, h100, h400]
    omega
  · rw [daysInYear]
    split_ifs with hleap
    · omega
    · rw [isLeap_iff] at hleap
      have hne : f ≠ 365 := by
        intro h365
        obtain ⟨rfl, h24⟩ := hlong h365
        refine hleap ⟨by omega, ?_⟩
        rcases Nat.lt_or_ge c 24 with hc24 | hc24
        · exact .inl (by omega)
        · exact .inr (by omega)
      omega

theorem year_unique {year other r r' : Nat} (hyear : 1 ≤ year) (hother : 1 ≤ other)
    (hr : r < daysInYear year) (hr' : r' < daysInYear other)
    (h : daysBeforeYear year + r = daysBeforeYear other + r') : year = other ∧ r = r' := by
  rcases Nat.lt_trichotomy year other with hlt | rfl | hlt
  · have hle := daysBeforeYear_le year.succ_pos hlt
    rw [Nat.succ_eq_add_one, daysBeforeYear_succ hyear] at hle
    omega
  · exact ⟨rfl, Nat.add_left_cancel h⟩
  · have hle := daysBeforeYear_le other.succ_pos hlt
    rw [Nat.succ_eq_add_one, daysBeforeYear_succ hother] at hle
    omega

/-- Looking for the month neither loses nor adds a day. -/
theorem daysBeforeMonth_monthDay (year fuel : Nat) {month : Nat} (hmonth : 1 ≤ month)
    (rest : Nat) : daysBeforeMonth year (monthDay year fuel month rest).1 +
      (monthDay year fuel month rest).2 = daysBeforeMonth year month + rest + 1 := by
  induction fuel generalizing month rest with
  | zero => rfl
  | succ fuel ih =>
      rw [monthDay]
      split_ifs with hrest
      · rfl
      · rw [ih month.succ_pos, daysBeforeMonth_succ year hmonth]
        omega

/-- The month of a day is found when it is not too far ahead. -/
theorem monthDay_eq {year fuel month later k : Nat} (hmonth : 1 ≤ month) (hlater : month ≤ later)
    (hfuel : later ≤ month + fuel) (hk : k < daysInMonth year later) :
    monthDay year fuel month (daysBeforeMonth year later - daysBeforeMonth year month + k) =
      (later, k + 1) := by
  induction fuel generalizing month with
  | zero =>
      obtain rfl : month = later := Nat.le_antisymm hlater hfuel
      rw [Nat.sub_self, Nat.zero_add]
      rfl
  | succ fuel ih =>
      rw [monthDay]
      rcases Nat.eq_or_lt_of_le hlater with rfl | hlt
      · rw [Nat.sub_self, Nat.zero_add, if_pos hk]
      · have hle := daysBeforeMonth_le year month.succ_pos hlt
        rw [Nat.succ_eq_add_one, daysBeforeMonth_succ year hmonth] at hle
        have hnext := ih month.succ_pos hlt (by omega)
        rw [Nat.succ_eq_add_one, daysBeforeMonth_succ year hmonth] at hnext
        rw [if_neg (by omega), ← hnext]
        congr 1
        omega

theorem ordinal_of_ofOrdinal? {n : Int} {d : Date} (h : ofOrdinal? n = some d) :
    (d.ordinal : Int) = n := by
  have hn : 1 ≤ n := by
    by_contra hlt
    rw [ofOrdinal?, if_pos (Int.not_le.1 hlt)] at h
    cases h
  rw [ofOrdinal?_eq hn, of?_eq_some_iff] at h
  obtain ⟨hyear, hmonth, hday⟩ := h
  obtain ⟨-, hdays, -⟩ := daysBeforeYear_yearOf (n - 1).toNat
  have hmonthDay := daysBeforeMonth_monthDay d.year 11 (Nat.le_refl 1) (dayOfYear (n - 1).toNat)
  rw [← hyear] at hdays hmonth hday
  rw [← hmonth, ← hday] at hmonthDay
  have hfirst : daysBeforeMonth d.year 1 = 0 := rfl
  rw [ordinal]
  omega

theorem ofOrdinal?_ordinal (d : Date) : ofOrdinal? d.ordinal = some d := by
  have hday := d.one_le_day
  have hinYear := d.daysBeforeMonth_add_day_le
  have hone : (1 : Int) ≤ d.ordinal := by
    rw [ordinal]
    omega
  have hdays : ((d.ordinal : Int) - 1).toNat =
      daysBeforeYear d.year + (daysBeforeMonth d.year d.month + (d.day - 1)) := by
    rw [ordinal]
    omega
  obtain ⟨hyear, hsplit, hrest⟩ := daysBeforeYear_yearOf ((d.ordinal : Int) - 1).toNat
  obtain ⟨hyear, hrest⟩ := year_unique hyear d.one_le_year hrest (by omega)
    (hsplit.trans hdays)
  have hmonthDay := monthDay_eq (Nat.le_refl 1) d.one_le_month
    (show d.month ≤ 1 + 11 from d.month_le) (show d.day - 1 < daysInMonth d.year d.month by
      have := d.day_le
      omega)
  have hfirst : daysBeforeMonth d.year 1 = 0 := rfl
  rw [hfirst, Nat.sub_zero] at hmonthDay
  rw [ofOrdinal?_eq hone, hyear, hrest, hmonthDay, of?_eq_some_iff]
  exact ⟨rfl, rfl, by omega⟩

end Date

namespace Timestamp

theorem ofInstant?_instant (t : Timestamp) : ofInstant? t.instant = some t := by
  have hday := t.time.lt_day
  have hdiv : (t.date.ordinal * microsPerDay + t.time.micros) / microsPerDay = t.date.ordinal := by
    rw [microsPerDay] at *
    omega
  have hmod : (t.date.ordinal * microsPerDay + t.time.micros) % microsPerDay = t.time.micros := by
    rw [microsPerDay] at *
    omega
  rw [ofInstant?, instant, if_pos (Int.natCast_nonneg _)]
  simp only [Int.toNat_natCast, hdiv, hmod, Date.ofOrdinal?_ordinal, Option.map_some]

/-- The moment at an instant has that instant. -/
theorem instant_of_ofInstant? {n : Int} {t : Timestamp} (h : ofInstant? n = some t) :
    t.instant = n := by
  rw [ofInstant?] at h
  split_ifs at h with hn
  obtain ⟨d, hd, rfl⟩ := Option.map_eq_some_iff.1 h
  have hordinal : d.ordinal = n.toNat / microsPerDay :=
    Int.natCast_inj.1 (Date.ordinal_of_ofOrdinal? hd)
  rw [instant, hordinal, Nat.div_add_mod', Int.toNat_of_nonneg hn]

theorem toUniversal_eq_ok_iff {t u : Timestamp} {o : Offset} :
    t.toUniversal o = .ok u ↔ u.instant = t.instant - o.micros := by
  rw [toUniversal]
  constructor
  · intro h
    split at h
    · next v hv =>
        cases h
        exact instant_of_ofInstant? hv
    · cases h
  · intro h
    rw [← h, ofInstant?_instant]

theorem toUniversal_zero (t : Timestamp) : t.toUniversal .zero = .ok t := by
  rw [toUniversal_eq_ok_iff]
  exact (Int.sub_zero _).symm

/-- Moments are in the order of their instants. -/
theorem compare_eq_compare_instant (t u : Timestamp) :
    compare t u = Ord.compare t.instant u.instant := by
  have hcast : ∀ n m : Nat, Ord.compare (n : Int) m = Ord.compare n m := by
    intro n m
    rw [Int.compare_eq_ite_lt, Nat.compare_eq_ite_lt]
    simp only [Int.ofNat_lt]
  rw [compare, index, index, Text.compare_mul_add t.time.lt_day u.time.lt_day,
    ← Date.compare_ordinal, ← Text.compare_mul_add t.time.lt_day u.time.lt_day, instant, instant,
    hcast]

end Timestamp

end TableQuery.Calendar
