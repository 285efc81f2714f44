import TableQuery.Calendar.Iso
import TableQuery.Calendar.Layout
import TableQuery.Value.Basic

/-!
# Sort keys

Texts of cells are read as timestamps or as numbers before they are ordered.
`readTimestamp` tries the international form and then the customary layouts; a
bare number is never a timestamp.
-/

namespace TableQuery

open TableQuery.Text TableQuery.Calendar

/-- The timestamp that a text denotes, an offset counted in. -/
def readTimestamp (s : String) : Except OutOfRange (Option Timestamp) :=
  let body := trimChars s
  if body.isEmpty || Binary64.isDecimal body then .ok none
  else
    match Iso.read? body with
    | some (t, none) => .ok (some t)
    | some (t, some o) => (t.toUniversal o).map some
    | none => .ok (readLayouts? body)

namespace Value

/-- The key of a text: its timestamp, else its number, else the text itself. -/
def textKey (s : String) : Except OutOfRange Value :=
  match readTimestamp s with
  | .error e => .error e
  | .ok (some t) => .ok (.timestamp t)
  | .ok none =>
    match Binary64.number? s with
    | some x => .ok (.number x)
    | none => .ok (.text s)

/-- The key of a value; only texts are read. -/
def sortKey : Value → Except OutOfRange Value
  | .text s => textKey s
  | v => .ok v

/-- The key of a cell that may be absent. -/
def cellKey (v : Option Value) : Except OutOfRange Value :=
  (v.getD .null).sortKey

@[simp] theorem cellKey_none : cellKey none = .ok .null := rfl

@[simp] theorem cellKey_some (v : Value) : cellKey (some v) = v.sortKey := rfl

end Value

end TableQuery
