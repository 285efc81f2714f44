import TableQuery.Proofs.Calendar.Ordinal

/-!
# The bounds of the calendar

Every count from that of the first day to that of the last is the count of a day. So the instants of
the calendar are all those between its first moment and its last one, and a local moment has a
moment of universal time exactly when its instant is among them. Only on the first and on the last
day an offset can lead outside.
-/

namespace TableQuery.Calendar

namespace Date

/-- The first of January of year 1. -/
def first : Date := ⟨1, 1, 1, by decide⟩

/-- The last of December of year 9999. -/
def last : Date := ⟨9999, 12, 31, by decide⟩

theorem ordinal_first : first.ordinal = 1 := rfl

theorem ordinal_last : last.ordinal = daysBeforeYear 10000 := rfl

theorem ordinal_injective {d e : Date} (h : d.ordinal = e.ordinal) : d = e := by
  have hd := ofOrdinal?_ordinal d
  rw [h, ofOrdinal?_ordinal e] at hd
  exact (Option.some.inj hd).symm

theorem first_ordinal_le (d : Date) : first.ordinal ≤ d.ordinal := by
  have hday := d.one_le_day
  rw [ordinal_first, ordinal]
  omega

theorem ordinal_le_last (d : Date) : d.ordinal ≤ last.ordinal := by
  rw [ordinal_last]
  exact d.ordinal_le.trans (daysBeforeYear_le d.year.succ_pos (Nat.succ_le_succ d.isDay.2.1))

/-- The days before a month lie in the months before it. -/
theorem exists_month {year k later : Nat} (h : k < daysBeforeMonth year (later + 1)) :
    ∃ month day, 1 ≤ month ∧ month ≤ later ∧ day < daysInMonth year month ∧
      k = daysBeforeMonth year month + day := by
  induction later with
  | zero => exact absurd h (Nat.not_lt_zero k)
  | succ later ih =>
      rcases Nat.lt_or_ge k (daysBeforeMonth year (later + 1)) with hlt | hge
      · obtain ⟨month, day, hone, hle, hday, hk⟩ := ih hlt
        exact ⟨month, day, hone, hle.trans later.le_succ, hday, hk⟩
      · rw [daysBeforeMonth_succ year (Nat.le_add_left 1 later)] at h
        exact ⟨later + 1, k - daysBeforeMonth year (later + 1), Nat.le_add_left 1 later,
          Nat.le_refl _, by omega, by omega⟩

theorem exists_of_lt_daysInYear {year k : Nat} (hyear : 1 ≤ year) (hyear' : year ≤ 9999)
    (h : k < daysInYear year) :
    ∃ d : Date, of? year (monthDay year 11 1 k).1 (monthDay year 11 1 k).2 = some d := by
  rw [← daysBeforeMonth_thirteen] at h
  obtain ⟨month, day, hone, hle, hday, hk⟩ := exists_month h
  have hfound := monthDay_eq (Nat.le_refl 1) hone (show month ≤ 1 + 11 from hle) hday
  have hfirst : daysBeforeMonth year 1 = 0 := rfl
  rw [hfirst, Nat.sub_zero, ← hk] at hfound
  rw [hfound]
  exact ⟨⟨year, month, day + 1, hyear, hyear', hone, hle, day.succ_pos, hday⟩,
    of?_eq_some_iff.2 ⟨rfl, rfl, rfl⟩⟩

/-- The counts of days are those from the first to the last. -/
theorem exists_ofOrdinal?_iff {n : Int} :
    (∃ d, ofOrdinal? n = some d) ↔ first.ordinal ≤ n ∧ n ≤ last.ordinal := by
  constructor
  · rintro ⟨d, hd⟩
    rw [← ordinal_of_ofOrdinal? hd]
    exact ⟨Int.ofNat_le.2 d.first_ordinal_le, Int.ofNat_le.2 d.ordinal_le_last⟩
  · rintro ⟨hfirst, hlast⟩
    rw [ordinal_first] at hfirst
    rw [ordinal_last] at hlast
    obtain ⟨hyear, hdays, hrest⟩ := daysBeforeYear_yearOf (n - 1).toNat
    have hyear' : yearOf (n - 1).toNat ≤ 9999 := by
      by_contra hlate
      have hle := daysBeforeYear_le (by decide : 1 ≤ 10000) (Nat.lt_of_not_le hlate)
      omega
    rw [ofOrdinal?_eq hfirst]
    exact exists_of_lt_daysInYear hyear hyear' hrest

end Date

namespace Timestamp

/-- The start of the first day. -/
def first : Timestamp := .ofDate .first

/-- The last microsecond of the last day. -/
def last : Timestamp := ⟨.last, ⟨microsPerDay - 1, by decide⟩⟩

theorem instant_first : first.instant = Date.first.ordinal * microsPerDay := rfl

theorem instant_last : last.instant + 1 = (Date.last.ordinal + 1) * microsPerDay := rfl

end Timestamp

/-- The instants of moments in the years 1 to 9999. -/
def InCalendar (n : Int) : Prop :=
  Timestamp.first.instant ≤ n ∧ n ≤ Timestamp.last.instant

namespace Timestamp

theorem inCalendar_instant (t : Timestamp) : InCalendar t.instant := by
  have hlast := instant_last
  have htime := t.time.lt_day
  have hlow := t.date.first_ordinal_le
  have hhigh := t.date.ordinal_le_last
  rw [InCalendar, instant_first, instant]
  rw [microsPerDay] at *
  omega

/-- The instants of moments are those in the calendar. -/
theorem exists_ofInstant?_iff {n : Int} : (∃ t, ofInstant? n = some t) ↔ InCalendar n := by
  constructor
  · rintro ⟨t, ht⟩
    rw [← instant_of_ofInstant? ht]
    exact t.inCalendar_instant
  · rintro ⟨hfirst, hlast⟩
    have hend := instant_last
    rw [instant_first] at hfirst
    have hdays : (Date.first.ordinal : Int) ≤ n / microsPerDay ∧
        n / microsPerDay ≤ Date.last.ordinal := by
      rw [microsPerDay] at *
      omega
    obtain ⟨d, hd⟩ := Date.exists_ofOrdinal?_iff.2 hdays
    have hrest := Int.emod_nonneg n (show (microsPerDay : Int) ≠ 0 by decide)
    have hday : (n % microsPerDay).toNat < microsPerDay := by
      rw [microsPerDay]
      omega
    have hinstant : (⟨d, ⟨_, hday⟩⟩ : Timestamp).instant = n := by
      rw [instant, Int.natCast_add, Int.natCast_mul, Date.ordinal_of_ofOrdinal? hd,
        Int.toNat_of_nonneg hrest, Int.ediv_mul_add_emod]
    exact ⟨_, hinstant ▸ ofInstant?_instant _⟩

theorem toUniversal_eq_error_iff {t : Timestamp} {o : Offset} :
    t.toUniversal o = .error .outOfRange ↔ ¬InCalendar (t.instant - o.micros) := by
  rw [← exists_ofInstant?_iff, toUniversal]
  cases ofInstant? (t.instant - o.micros) with
  | none => simp
  | some u => simp

/-- Only a clock that is ahead on the first day, or behind on the last, shows a moment whose
universal time is outside the calendar. -/
theorem date_of_not_inCalendar {t : Timestamp} {o : Offset}
    (h : ¬InCalendar (t.instant - o.micros)) :
    t.date = .first ∧ 0 < o.micros ∨ t.date = .last ∧ o.micros < 0 := by
  have hlast := instant_last
  have hoffset := o.lt_day
  have htime := t.time.lt_day
  have hlow := t.date.first_ordinal_le
  have hhigh := t.date.ordinal_le_last
  rw [InCalendar, not_and_or, Int.not_le, Int.not_le, instant_first, instant,
    ← Int.add_one_le_iff] at h
  rw [microsPerDay] at *
  rcases h with h | h
  · exact .inl ⟨Date.ordinal_injective (by omega), by omega⟩
  · exact .inr ⟨Date.ordinal_injective (by omega), by omega⟩

end Timestamp

end TableQuery.Calendar
