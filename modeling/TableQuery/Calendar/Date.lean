import TableQuery.Text.Digit

/-!
# Dates

Days of the Gregorian calendar in the years 1 to 9999. `ordinal` counts the days
from the first of January of year 1, and `ofOrdinal?` reads such a count back.
-/

namespace TableQuery.Calendar

open TableQuery.Text

/-- Every fourth year is a leap year, of the centuries every fourth one. -/
def isLeap (year : Nat) : Bool :=
  year % 4 == 0 && (year % 100 != 0 || year % 400 == 0)

/-- The number of days of a month. -/
def daysInMonth (year month : Nat) : Nat :=
  if month = 2 then (if isLeap year then 29 else 28)
  else if month = 4 ∨ month = 6 ∨ month = 9 ∨ month = 11 then 30
  else 31

/-- The triples that name a day. -/
def IsDay (year month day : Nat) : Prop :=
  1 ≤ year ∧ year ≤ 9999 ∧ 1 ≤ month ∧ month ≤ 12 ∧ 1 ≤ day ∧ day ≤ daysInMonth year month

instance (year month day : Nat) : Decidable (IsDay year month day) := by
  unfold IsDay
  infer_instance

/-- A day of the calendar. -/
structure Date where
  year : Nat
  month : Nat
  day : Nat
  isDay : IsDay year month day
  deriving DecidableEq

namespace Date

/-- The day that a triple names. -/
def of? (year month day : Nat) : Option Date :=
  if h : IsDay year month day then some ⟨year, month, day, h⟩ else none

theorem of?_eq_some_iff {year month day : Nat} {d : Date} :
    of? year month day = some d ↔ d.year = year ∧ d.month = month ∧ d.day = day := by
  constructor
  · intro h
    unfold of? at h
    split at h
    · cases h
      exact ⟨rfl, rfl, rfl⟩
    · cases h
  · rintro ⟨rfl, rfl, rfl⟩
    simp [of?, d.isDay]

/-- A number that grows from day to day. -/
def index (d : Date) : Nat :=
  d.year * 10000 + d.month * 100 + d.day

theorem daysInMonth_le (year month : Nat) : daysInMonth year month ≤ 31 := by
  unfold daysInMonth
  split
  · split <;> omega
  · split <;> omega

theorem index_injective {a b : Date} (h : a.index = b.index) : a = b := by
  obtain ⟨ya, ma, da, ha⟩ := a
  obtain ⟨yb, mb, db, hb⟩ := b
  have hda := daysInMonth_le ya ma
  have hdb := daysInMonth_le yb mb
  simp only [index] at h
  obtain ⟨-, -, -, hma, -, hda'⟩ := id ha
  obtain ⟨-, -, -, hmb, -, hdb'⟩ := id hb
  have hy : ya = yb := by omega
  have hm : ma = mb := by omega
  have hd : da = db := by omega
  subst hy hm hd
  rfl

/-- The days before a year. -/
def daysBeforeYear (year : Nat) : Nat :=
  let y := year - 1
  y * 365 + y / 4 - y / 100 + y / 400

/-- The days of a year before a month. -/
def daysBeforeMonth (year month : Nat) : Nat :=
  ((List.range (month - 1)).map fun m => daysInMonth year (m + 1)).foldl (· + ·) 0

/-- The count of a day, one for the first of January of year 1. -/
def ordinal (d : Date) : Nat :=
  daysBeforeYear d.year + daysBeforeMonth d.year d.month + d.day

/-- The month and day of a day of the year counted from zero, looking from
`month` on. -/
def monthDay (year : Nat) : Nat → Nat → Nat → Nat × Nat
  | 0, month, rest => (month, rest + 1)
  | fuel + 1, month, rest =>
    let n := daysInMonth year month
    if rest < n then (month, rest + 1) else monthDay year fuel (month + 1) (rest - n)

/-- The day with a given count. -/
def ofOrdinal? (n : Int) : Option Date :=
  if n < 1 then none
  else
    let days := (n - 1).toNat
    let c400 := days / 146097
    let r400 := days % 146097
    let c100 := min (r400 / 36524) 3
    let r100 := r400 - c100 * 36524
    let c4 := r100 / 1461
    let r4 := r100 % 1461
    let c1 := min (r4 / 365) 3
    let r1 := r4 - c1 * 365
    let year := c400 * 400 + c100 * 100 + c4 * 4 + c1 + 1
    let md := monthDay year 11 1 r1
    of? year md.1 md.2

/-- The count of the Monday of the first week of a year: the week that holds the
first Thursday. -/
def firstMonday (year : Nat) : Int :=
  let first := daysBeforeYear year + 1
  let w := (first + 6) % 7
  let monday : Int := (first : Int) - w
  if 3 < w then monday + 7 else monday

/-- A year has 53 weeks when it starts on a Thursday, or on a Wednesday in a leap
year. -/
def hasWeek53 (year : Nat) : Bool :=
  let w := (daysBeforeYear year + 1 + 6) % 7
  w == 3 || (w == 2 && isLeap year)

/-- A day by year, week and day of the week. -/
def ofWeek? (year week day : Nat) : Option Date :=
  if 1 ≤ year ∧ year ≤ 9999 ∧ 1 ≤ week ∧ (week ≤ 52 ∨ week = 53 ∧ hasWeek53 year = true) ∧
      1 ≤ day ∧ day ≤ 7 then
    ofOrdinal? (firstMonday year + ((week - 1) * 7 + (day - 1) : Nat))
  else none

/-- Year, month and day with hyphens between them. -/
def chars (d : Date) : List Char :=
  padded 4 d.year ++ '-' :: (padded 2 d.month ++ '-' :: padded 2 d.day)

/-- Year, month and day with hyphens between them. -/
def text (d : Date) : String :=
  String.ofList d.chars

end Date

end TableQuery.Calendar
