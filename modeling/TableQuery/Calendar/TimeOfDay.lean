import TableQuery.Text.Digit

/-!
# Times of day and offsets

A time of day counts microseconds from midnight. An offset is a signed count of
less than one day. Both print as hours, minutes and seconds, with a fraction only
when it is not zero.
-/

namespace TableQuery.Calendar

open TableQuery.Text

/-- The microseconds of a day. -/
def microsPerDay : Nat := 86400000000

/-- A fraction of a second in six digits, nothing when it is zero. -/
def fractionText (micros : Nat) : List Char :=
  if micros = 0 then [] else '.' :: padded 6 micros

/-- A time of day. -/
structure TimeOfDay where
  micros : Nat
  lt_day : micros < microsPerDay
  deriving DecidableEq

namespace TimeOfDay

/-- The start of the day. -/
def midnight : TimeOfDay := ⟨0, by decide⟩

/-- The time with the given hour, minute, second and microsecond. -/
def of? (hour minute second micro : Nat) : Option TimeOfDay :=
  if h : hour < 24 ∧ minute < 60 ∧ second < 60 ∧ micro < 1000000 then
    some ⟨((hour * 60 + minute) * 60 + second) * 1000000 + micro, by
      unfold microsPerDay
      omega⟩
  else none

def hour (t : TimeOfDay) : Nat := t.micros / 3600000000

def minute (t : TimeOfDay) : Nat := t.micros / 60000000 % 60

def second (t : TimeOfDay) : Nat := t.micros / 1000000 % 60

def micro (t : TimeOfDay) : Nat := t.micros % 1000000

theorem of?_fields (t : TimeOfDay) : of? t.hour t.minute t.second t.micro = some t := by
  obtain ⟨n, h⟩ := t
  have hn : n < 86400000000 := h
  have hsum : ((n / 3600000000 * 60 + n / 60000000 % 60) * 60 + n / 1000000 % 60) * 1000000 +
      n % 1000000 = n := by omega
  have hfields : n / 3600000000 < 24 ∧ n / 60000000 % 60 < 60 ∧ n / 1000000 % 60 < 60 ∧
      n % 1000000 < 1000000 := by omega
  simp [of?, hour, minute, second, micro, hfields, hsum]

/-- Hours, minutes and seconds with colons between them. -/
def chars (t : TimeOfDay) : List Char :=
  padded 2 t.hour ++ ':' :: (padded 2 t.minute ++ ':' :: (padded 2 t.second ++
    fractionText t.micro))

/-- Hours, minutes and seconds with colons between them. -/
def text (t : TimeOfDay) : String :=
  String.ofList t.chars

end TimeOfDay

/-- The distance of a local clock from universal time. -/
structure Offset where
  micros : Int
  lt_day : micros.natAbs < microsPerDay
  deriving DecidableEq

namespace Offset

/-- An offset of less than a day. -/
def of? (micros : Int) : Option Offset :=
  if h : micros.natAbs < microsPerDay then some ⟨micros, h⟩ else none

/-- The clock of universal time. -/
def zero : Offset := ⟨0, by decide⟩

/-- Sign, hours and minutes, then seconds and fraction when they are not zero. -/
def chars (o : Offset) : List Char :=
  let n := o.micros.natAbs
  let seconds := n / 1000000 % 60
  let micro := n % 1000000
  (if o.micros < 0 then '-' else '+') ::
    (padded 2 (n / 3600000000) ++ ':' :: (padded 2 (n / 60000000 % 60) ++
      if seconds = 0 ∧ micro = 0 then []
      else ':' :: (padded 2 seconds ++ fractionText micro)))

/-- Sign, hours and minutes, then seconds and fraction when they are not zero. -/
def text (o : Offset) : String :=
  String.ofList o.chars

end Offset

end TableQuery.Calendar
