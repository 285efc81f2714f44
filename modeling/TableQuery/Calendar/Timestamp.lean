import TableQuery.Calendar.Date
import TableQuery.Calendar.TimeOfDay

/-!
# Timestamps

A timestamp is a day and a time without an offset. A local timestamp with an
offset denotes the timestamp of universal time, which may leave the calendar.
-/

namespace TableQuery.Calendar

/-- The day of a moment lies outside the years 1 to 9999. -/
inductive OutOfRange
  | outOfRange
  deriving DecidableEq

/-- A moment by the calendar and the clock. -/
structure Timestamp where
  date : Date
  time : TimeOfDay
  deriving DecidableEq

namespace Timestamp

/-- The start of a day. -/
def ofDate (d : Date) : Timestamp := ⟨d, .midnight⟩

/-- The moment with the given fields. -/
def of? (year month day hour minute second micro : Nat) : Option Timestamp :=
  match Date.of? year month day, TimeOfDay.of? hour minute second micro with
  | some d, some t => some ⟨d, t⟩
  | _, _ => none

/-- A number that grows with the moment. -/
def index (t : Timestamp) : Nat :=
  t.date.index * microsPerDay + t.time.micros

theorem index_injective {a b : Timestamp} (h : a.index = b.index) : a = b := by
  obtain ⟨da, ⟨ta, hta⟩⟩ := a
  obtain ⟨db, ⟨tb, htb⟩⟩ := b
  simp only [index, microsPerDay] at h hta htb
  have hd : da = db := Date.index_injective (by omega)
  have ht : ta = tb := by
    subst hd
    omega
  subst hd ht
  rfl

/-- Earlier moments first. -/
def compare (a b : Timestamp) : Ordering :=
  Ord.compare a.index b.index

/-- The microseconds from the start of the calendar, the first day counting one. -/
def instant (t : Timestamp) : Int :=
  (t.date.ordinal * microsPerDay + t.time.micros : Nat)

/-- The moment at an instant. -/
def ofInstant? (n : Int) : Option Timestamp :=
  if 0 ≤ n then
    let m := n.toNat
    (Date.ofOrdinal? (m / microsPerDay : Nat)).map fun d =>
      ⟨d, ⟨m % microsPerDay, Nat.mod_lt _ (by decide)⟩⟩
  else none

/-- The moment of universal time that a local clock with an offset shows. -/
def toUniversal (t : Timestamp) (o : Offset) : Except OutOfRange Timestamp :=
  match ofInstant? (t.instant - o.micros) with
  | some u => .ok u
  | none => .error .outOfRange

/-- Day and time with a separator between them. -/
def chars (sep : Char) (t : Timestamp) : List Char :=
  t.date.chars ++ sep :: t.time.chars

/-- Day and time with a `T` between them. -/
def iso (t : Timestamp) : String :=
  String.ofList (t.chars 'T')

/-- Day and time with a blank between them. -/
def text (t : Timestamp) : String :=
  String.ofList (t.chars ' ')

end Timestamp

end TableQuery.Calendar
