import TableQuery.Failure
import TableQuery.Text.Split

/-!
# Cells of workbook files

What happens to a value on its way into a workbook file and out again. A text of more
than one character that starts with an equals sign is a formula, which has no value
until a spreadsheet program computes it. Numbers keep sixteen significant digits,
days become moments at midnight, times are kept to the millisecond, and line breaks
become line feeds.
-/

namespace TableQuery

open TableQuery.Text TableQuery.Calendar

/-- A character that a markup document may hold: of the control characters only the tab
and the line breaks, and neither of the two code points that end the first plane. -/
def Text.isMarkup (c : Char) : Bool :=
  let n := c.toNat
  n == 9 || n == 10 || n == 13 || (32 ≤ n && n != 65534 && n != 65535)

/-- A text of markup characters. -/
def Text.OfMarkup (s : List Char) : Prop :=
  ∀ c ∈ s, isMarkup c = true

instance (s : List Char) : Decidable (Text.OfMarkup s) :=
  List.decidableBAll (fun c => isMarkup c = true) s

/-- A cell that is present in a file. -/
structure Cell where
  value : Datum
  bold : Bool := false

namespace Cell

/-- The longest text that a cell holds. -/
def maxLength : Nat := 32767

/-- A control character, which no cell takes. -/
def isIllegal (c : Char) : Bool :=
  let n := c.toNat
  n ≤ 8 || n == 11 || n == 12 || (14 ≤ n && n ≤ 31)

/-- A text that is taken for a formula. -/
def isFormula (s : String) : Bool :=
  match s.toList with
  | '=' :: _ :: _ => true
  | _ => false

/-- A text as a cell takes it. -/
def acceptText (s : String) : Except Failure Datum :=
  let t := String.ofList (s.toList.take maxLength)
  if t.toList.any isIllegal then .error (.cellIllegal t) else .ok (.text t)

/-- A value as a cell takes it. -/
def accept : Datum → Except Failure Datum
  | .text s => acceptText s
  | .uuid n => .error (.cellUnsupported (Datum.uuid n).literal)
  | .list items =>
    let d := Datum.list items
    .error (if d.isPrintable then .cellUnsupported d.literal
      else .conversion (.unprinted Datum.digitsFault))
  | d => .ok d

/-- A number with sixteen significant digits; one that is infinite or undefined
leaves the cell empty. -/
def writtenNumber (x : Binary64) : Datum :=
  if x.isFinite then
    let s := (x.general 16).toList
    if s.contains '.' || s.contains 'e' then
      .float ((Binary64.decimal? s).getD x)
    else .int ((Binary64.intOfText? (String.ofList s)).getD 0)
  else .null

/-- A time to the nearest millisecond. -/
def toMillis (micros : Nat) : Nat :=
  Binary64.roundDiv micros 1000 * 1000

/-- A time of day to the nearest millisecond. -/
def writtenTime (t : TimeOfDay) : TimeOfDay :=
  if h : toMillis t.micros < microsPerDay then ⟨toMillis t.micros, h⟩ else t

/-- A text with every line break as a line feed; `afterReturn` tells that the character
before was a carriage return. -/
def lineFeeds (afterReturn : Bool) : List Char → List Char
  | [] => []
  | c :: s =>
    if c = '\r' then '\n' :: lineFeeds true s
    else if c = '\n' ∧ afterReturn then lineFeeds false s
    else c :: lineFeeds false s

theorem lineFeeds_of_not_mem {s : List Char} (h : '\r' ∉ s) : lineFeeds false s = s := by
  induction s with
  | nil => rfl
  | cons c s ih =>
    rw [List.mem_cons, not_or] at h
    simp [lineFeeds, Ne.symm h.1, ih h.2]

/-- A value as a file keeps it. An empty text leaves an empty cell. -/
def written : Datum → Except Failure Datum
  | .text s => .ok (if s = "" then .null else .text (String.ofList (lineFeeds false s.toList)))
  | .int n =>
    match Binary64.ofInt? n with
    | some x => .ok (writtenNumber x)
    | none => .error (.conversion .integerTooLarge)
  | .float x => .ok (writtenNumber x)
  | .decimal d =>
    match d.toBinary64? with
    | some x => .ok (writtenNumber x)
    | none => .error (.conversion .signalingNan)
  | .date d => .ok (.datetime (.ofDate d) none)
  | .datetime t none => .ok (.datetime { t with time := writtenTime t.time } none)
  | .time t none => .ok (.time (writtenTime t) none)
  | .datetime _ (some _) | .time _ (some _) => .error .zonedCell
  | d => .ok d

/-- A cell as it is read without its formula. -/
def shown : Datum → Datum
  | .text s => if isFormula s then .null else .text s
  | d => d

/-- The texts that a file keeps and shows unchanged. -/
def IsPlain (s : String) : Prop :=
  s ≠ "" ∧ s.length ≤ maxLength ∧ OfMarkup s.toList ∧ '\r' ∉ s.toList ∧ isFormula s = false

instance (s : String) : Decidable (IsPlain s) :=
  inferInstanceAs (Decidable (s ≠ "" ∧ s.length ≤ maxLength ∧ OfMarkup s.toList ∧
    '\r' ∉ s.toList ∧ isFormula s = false))

end Cell

end TableQuery
