import TableQuery.Native

/-!
# Cell values

A cell is missing, a text, a number or a timestamp. `ofNative` makes a value of
what a driver delivers, `words` gives the words of a cell and `primitive` what a
record holds.
-/

namespace TableQuery

open TableQuery.Text TableQuery.Calendar

/-- The contents of a cell. -/
inductive Value
  | null
  | text (s : String)
  | number (x : Binary64)
  | timestamp (t : Timestamp)
  deriving DecidableEq

/-- What a record holds in place of a value. -/
inductive Primitive
  | null
  | text (s : String)
  | int (n : Int)
  | float (x : Binary64)
  deriving DecidableEq

/-- Why a delivered value has no counterpart among the cell values. -/
inductive ConversionError
  | integerTooLarge
  | signalingNan
  | outOfRange
  | unprinted (fault : PrintFault)
  deriving DecidableEq

namespace Value

/-- A missing cell. -/
def isNull : Value → Bool
  | .null => true
  | _ => false

theorem isNull_iff (v : Value) : v.isNull = true ↔ v = .null := by
  cases v <;> simp [isNull]

/-- The words of a cell, none for a missing one. -/
def words : Value → String
  | .null => ""
  | .text s => s
  | .number x => x.text
  | .timestamp t => t.text

/-- What a record holds: whole numbers become integers. -/
def primitive : Value → Primitive
  | .null => .null
  | .text s => .text s
  | .number x =>
    match x.toInt? with
    | some n => .int n
    | none => .float x
  | .timestamp t => .text t.iso

/-- Equality of values: the same kind, the same text or moment, numbers by their
size. -/
def same : Value → Value → Bool
  | .null, .null => true
  | .text a, .text b => a == b
  | .number a, .number b => a.same b
  | .timestamp a, .timestamp b => decide (a = b)
  | _, _ => false

theorem same_comm (a b : Value) : same a b = same b a := by
  cases a <;> cases b <;> simp [same, Bool.beq_comm, Binary64.same_comm, eq_comm]

/-- A number that is neither infinite nor undefined, and null otherwise. -/
def ofFinite (x : Binary64) : Value :=
  if x.isFinite then .number x else .null

/-- The value that a conversion gives, or why it gives none. -/
def converted (reason : ConversionError) : Option Value → Except ConversionError Value
  | some v => .ok v
  | none => .error reason

/-- The value of what a driver delivers. Truth values count as numbers, moments are
those of universal time, and every other kind becomes the text that it prints. -/
def ofNative : Native → Except ConversionError Value
  | .null => .ok .null
  | .text s => .ok (.text s)
  | .bool b => .ok (.number (if b then Binary64.one else Binary64.zero))
  | .int n => converted .integerTooLarge ((Binary64.ofInt? n).map .number)
  | .float x => .ok (ofFinite x)
  | .decimal d => converted .signalingNan (d.toBinary64?.map ofFinite)
  | .date d => .ok (.timestamp (.ofDate d))
  | .datetime t none => .ok (.timestamp t)
  | .datetime t (some o) =>
    match t.toUniversal o with
    | .ok u => .ok (.timestamp u)
    | .error _ => .error .outOfRange
  | .other (.ok s) => .ok (.text s)
  | .other (.error fault) => .error (.unprinted fault)

/-- The value of stored data. -/
def ofDatum (d : Datum) : Except ConversionError Value :=
  ofNative d.native

end Value

end TableQuery
