import TableQuery.Proofs.Calendar.Bounds
import TableQuery.Proofs.Rows.Order
import TableQuery.Proofs.Tabular.Stages

/-!
# Texts that cannot be ordered

A text with an offset may denote a moment of universal time outside the calendar. Reading such a
text as a timestamp is refused, and so is every order by a column that holds one, with the query
that asks for it. Nothing else is refused: every other text is a timestamp or none, and rows without
such texts are ordered, whatever the text of the order is.
-/

namespace TableQuery

open scoped List

open TableQuery.Text TableQuery.Calendar

/-- The text shows a local moment and its offset, and the moment of universal time is outside the
calendar. -/
def LeavesCalendar (s : String) : Prop :=
  Binary64.isDecimal (trimChars s) = false ∧
    ∃ t o, Iso.read? (trimChars s) = some (t, some o) ∧ ¬InCalendar (t.instant - o.micros)

theorem readTimestamp_eq_error_iff {s : String} {e : OutOfRange} :
    readTimestamp s = .error e ↔ LeavesCalendar s := by
  have hempty : Iso.read? [] = none := rfl
  rw [readTimestamp, LeavesCalendar]
  generalize trimChars s = body
  cases hdecimal : Binary64.isDecimal body with
  | true => simp
  | false =>
      cases body with
      | nil => simp [hempty]
      | cons c cs =>
          cases hread : Iso.read? (c :: cs) with
          | none => simp
          | some moment =>
              obtain ⟨t, o | o⟩ := moment
              · simp
              · have huniversal : (t.toUniversal o).map some = .error e ↔
                    ¬InCalendar (t.instant - o.micros) := by
                  rw [map_eq_error_iff, Timestamp.toUniversal_eq_error_iff]
                simpa using huniversal

theorem exists_readTimestamp_iff {s : String} :
    (∃ t, readTimestamp s = .ok t) ↔ ¬LeavesCalendar s := by
  rw [← readTimestamp_eq_error_iff (e := .outOfRange)]
  cases readTimestamp s <;> simp

namespace Value

theorem textKey_eq_error_iff {s : String} {e : OutOfRange} :
    textKey s = .error e ↔ LeavesCalendar s := by
  rw [← readTimestamp_eq_error_iff (e := e), textKey]
  cases readTimestamp s with
  | error e' => simp
  | ok t =>
      cases t with
      | some t => simp
      | none => cases Binary64.number? s <;> simp

theorem cellKey_eq_error_iff {v : Option Value} {e : OutOfRange} :
    cellKey v = .error e ↔ ∃ s, v = some (.text s) ∧ LeavesCalendar s := by
  cases v with
  | none => simp
  | some v =>
      rw [cellKey_some]
      cases v with
      | text s => simp [sortKey, textKey_eq_error_iff]
      | _ => simp [sortKey]

end Value

/-- The row holds a text in a column that leaves the calendar. -/
def Row.LeavesCalendarIn (row : Row) (column : String) : Prop :=
  ∃ s, row.get? column = some (.text s) ∧ LeavesCalendar s

namespace Rows

theorem keyed_eq_error_iff {column : String} {rows : List Row} {e : OutOfRange} :
    keyed column rows = .error e ↔ ∃ row ∈ rows, row.LeavesCalendarIn column := by
  induction rows with
  | nil => simp [keyed]
  | cons row rows ih =>
      rw [keyed, List.exists_mem_cons_iff]
      cases hkey : Value.cellKey (row.get? column) with
      | error e' =>
          have hleaves : row.LeavesCalendarIn column := Value.cellKey_eq_error_iff.1 hkey
          exact iff_of_true rfl (.inl hleaves)
      | ok key =>
          have hstays : ¬row.LeavesCalendarIn column := by
            intro hleaves
            rw [(Value.cellKey_eq_error_iff (e := .outOfRange)).2 hleaves] at hkey
            cases hkey
          rw [or_iff_right hstays, ← ih]
          exact map_eq_error_iff

/-- Some row leaves the calendar in the column that an order text names. -/
def LeaveCalendar (rows : List Row) (text : Option String) : Prop :=
  ∃ o, SortOrder.parse? text = some o ∧ ∃ row ∈ rows, row.LeavesCalendarIn o.column

theorem order_eq_error_iff {rows : List Row} {text : Option String} {e : OutOfRange} :
    order rows text = .error e ↔ LeaveCalendar rows text := by
  rw [order, LeaveCalendar]
  cases SortOrder.parse? text with
  | none => simp
  | some o => simp [orderBy, map_eq_error_iff, keyed_eq_error_iff]

theorem exists_order_iff {rows : List Row} {text : Option String} :
    (∃ sorted, order rows text = .ok sorted ∧ sorted ~ rows) ↔ ¬LeaveCalendar rows text := by
  rw [← order_eq_error_iff (e := .outOfRange)]
  cases h : order rows text with
  | error e => simp
  | ok sorted => simpa using order_perm h

end Rows

namespace Tabular

/-- Sheets and joins are refused for reasons of their own. -/
theorem joinSheets_ne_conversion (b : Book) (rows : List Row) (joins : List JoinSpec)
    (e : ConversionError) : joinSheets b rows joins ≠ .error (.conversion e) := by
  induction joins generalizing rows with
  | nil => simp
  | cons j joins ih =>
      rw [joinSheets]
      split
      · simp
      · split
        · simp [Failure.ofMissingKey]
        · exact ih _

/-- The rows that a query orders: those of its sheets, joined and filtered. -/
def Gathers (deadline : Option Deadline) (b : Book) (r : Request) (gathered : List Row) : Prop :=
  ∃ base joined, b.load r.table = .ok base ∧ checkDeadline deadline = .ok () ∧
    joinSheets b base r.joins = .ok joined ∧ Rows.filter joined r.filter = gathered

theorem rows_eq_conversion_iff {deadline : Option Deadline} {b : Book} {r : Request}
    {e : ConversionError} :
    rows deadline b r = .error (.conversion e) ↔ e = .outOfRange ∧
      ∃ gathered, Gathers deadline b r gathered ∧ Rows.LeaveCalendar gathered r.orderBy := by
  rw [rows, map_eq_error_iff, fullRows]
  simp only [Gathers]
  cases b.load r.table with
  | error e => simp
  | ok base =>
      cases checkDeadline deadline with
      | error e => simp
      | ok =>
          have hjoins := joinSheets_ne_conversion b base r.joins e
          simp only [Except.ok.injEq, ↓existsAndEq, true_and]
          generalize joinSheets b base r.joins = joined at hjoins ⊢
          cases joined with
          | error f => simpa using hjoins
          | ok joined =>
              have horder : Rows.order (Rows.filter joined r.filter) r.orderBy =
                  .error .outOfRange ↔
                    Rows.LeaveCalendar (Rows.filter joined r.filter) r.orderBy :=
                Rows.order_eq_error_iff
              simp only [Except.ok.injEq, ↓existsAndEq, true_and, ← horder]
              cases Rows.order (Rows.filter joined r.filter) r.orderBy with
              | error e' => simp [Failure.ofOutOfRange, eq_comm]
              | ok ordered => simp

end Tabular

/-- What is refused in a text, in an order of rows and in a query over a workbook. -/
structure RefusesLeaving (s : String) (rows : List Row) (text : Option String)
    (deadline : Option Deadline) (b : Book) (r : Request) : Prop where
  read : (∃ t, readTimestamp s = .ok t) ↔ ¬LeavesCalendar s
  ends : LeavesCalendar s → ∃ t o, Iso.read? (trimChars s) = some (t, some o) ∧
    (t.date = .first ∧ 0 < o.micros ∨ t.date = .last ∧ o.micros < 0)
  order : (∃ sorted, Rows.order rows text = .ok sorted ∧ sorted ~ rows) ↔
    ¬Rows.LeaveCalendar rows text
  query : ∀ e, Tabular.rows deadline b r = .error (.conversion e) ↔ e = .outOfRange ∧
    ∃ gathered, Tabular.Gathers deadline b r gathered ∧ Rows.LeaveCalendar gathered r.orderBy

/-- Texts, orders and queries are refused only where a text leaves the calendar: one of the first
day with a clock that is ahead, or of the last day with a clock that is behind. -/
theorem refusesLeaving (s : String) (rows : List Row) (text : Option String)
    (deadline : Option Deadline) (b : Book) (r : Request) :
    RefusesLeaving s rows text deadline b r := by
  constructor
  case read => exact exists_readTimestamp_iff
  case ends =>
    rintro ⟨-, t, o, hread, hleaves⟩
    exact ⟨t, o, hread, Timestamp.date_of_not_inCalendar hleaves⟩
  case order => exact Rows.exists_order_iff
  case query => exact fun e => Tabular.rows_eq_conversion_iff

/-- The first hour of the calendar, on a clock that is an hour ahead, is not a timestamp and does
not sort. -/
theorem not_ordered_first_hour : (¬∀ s, ∃ t, readTimestamp s = .ok t) ∧
    ¬∀ (rows : List Row) (text : Option String),
      ∃ sorted, Rows.order rows text = .ok sorted ∧ sorted ~ rows := by
  have hleaves : LeavesCalendar "0001-01-01T00:00+01:00" :=
    (readTimestamp_eq_error_iff (e := .outOfRange)).1 rfl
  constructor
  · intro h
    exact exists_readTimestamp_iff.1 (h _) hleaves
  · intro h
    let row := Row.empty.set "at" (.text "0001-01-01T00:00+01:00")
    have hrow : row.LeavesCalendarIn "at" := ⟨_, rfl, hleaves⟩
    exact Rows.exists_order_iff.1 (h [row] (some "at"))
      ⟨⟨"at", false⟩, rfl, row, List.mem_singleton_self row, hrow⟩

end TableQuery
