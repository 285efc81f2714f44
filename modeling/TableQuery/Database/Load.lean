import TableQuery.Csv
import TableQuery.Database.Basic

/-!
# Loading files into tables

The columns of a file are typed by their fields: integers, numbers, truth values or
texts. A file is appended to the table of its name or makes a new one. A name that is
no identifier is refused.
-/

namespace TableQuery

open TableQuery.Text

namespace Csv

/-- White space around numbers. -/
def isNumberSpace (c : Char) : Bool :=
  c == ' ' || (9 ≤ c.toNat && c.toNat ≤ 13)

/-- The integer that a field denotes. -/
def integer? (field : String) : Option Int :=
  let (neg, ds) := Binary64.splitSign (stripBy isNumberSpace field.toList)
  if !ds.isEmpty && ds.all isAsciiDigit then
    let n : Int := digitsValue ds
    some (if neg then -n else n)
  else none

/-- The number that a field denotes. -/
def number? (field : String) : Option Binary64 :=
  let body := stripBy isNumberSpace field.toList
  match Binary64.named? body with
  | some x => if x.isNan then none else some x
  | none => if body.all (fun c => c.toNat < 128) then Binary64.decimal? body else none

/-- The truth value that a field denotes. -/
def truth? (field : String) : Option Bool :=
  if ["True", "TRUE", "true"].contains field then some true
  else if ["False", "FALSE", "false"].contains field then some false
  else none

/-- The type of a column by its fields. An integer column with gaps holds numbers, and
a column without rows holds integers. -/
def columnType (fields : List (Option String)) : ColumnType :=
  let given := fields.filterMap id
  let integers := given.filterMap integer?
  if fields.isEmpty then .integer 32
  else if given.length = fields.length && integers.length = given.length &&
      integers.all (ColumnType.fitsBits 64) then .integer 64
  else if given.length = fields.length && integers.length = given.length &&
      integers.all (fun n => 0 ≤ n && n < twoPow 64) then .integer 128
  else if given.length = fields.length && integers.length = given.length then .varchar
  else if given.all fun s => (number? s).isSome then .double
  else if given.all fun s => (truth? s).isSome then .boolean
  else .varchar

/-- A field as a value of a column type. -/
def fieldValue (type : ColumnType) : Option String → Datum
  | none => .null
  | some s =>
    match type with
    | .integer _ => ((integer? s).map Datum.int).getD .null
    | .double => ((number? s).map Datum.float).getD .null
    | .boolean => ((truth? s).map Datum.bool).getD .null
    | _ => .text s

/-- Names that differ without regard to case; a repeated one is numbered. -/
def distinctNames (used : List String) : List String → List String
  | [] => []
  | name :: names =>
    let taken (s : String) : Bool := used.any (sameName s)
    let fresh := if taken name then
        let n := ((List.range (used.length + 1)).find? fun i =>
          !taken (name ++ "_" ++ (i + 1).repr)).getD used.length
        name ++ "_" ++ (n + 1).repr
      else name
    fresh :: distinctNames (used ++ [fresh]) names

/-- The typed table of a file. -/
def toTable (name : String) (data : Data) : TableData :=
  let column (i : Nat) : List (Option String) := data.rows.map fun row => row.getD i none
  let columns := (distinctNames [] data.header).zipIdx.map fun (n, i) => (n, columnType (column i))
  ⟨name, columns, data.rows.map fun row =>
    (columns.zip row).map fun (c, field) => fieldValue c.2 field⟩

end Csv

namespace Database

/-- A name that a table may have: one part of an identifier. -/
def isTableName (name : String) : Bool :=
  match name.toList with
  | [] => false
  | c :: s =>
    (isAsciiLetter c || c == '_') &&
      ((if ['\n'].isSuffixOf s then s.dropLast else s).all fun c =>
        isAsciiLetter c || isAsciiDigit c || c == '_')

/-- The name under which a file stands while it is loaded. -/
def stagingName : String := "incoming"

/-- A table with the rows of another appended, each value stored in the type of its
column. -/
def append (t new : TableData) : Except DatabaseError TableData :=
  if t.columns.length != new.columns.length then .error .binder
  else
    match tableOf t.name t.columns new.rows with
    | some stored => .ok { t with rows := t.rows ++ stored.rows }
    | none => .error .conversion

/-- The database with a file loaded into a table, which is dropped first on request,
and the number of rows of the table. -/
def load (d : Database) (replace : Bool) (name : String) (data : Csv.Data) :
    Except DatabaseError (Database × Nat) := do
  if sameName name stagingName then throw .catalog
  let d := if replace then d.drop name else d
  let new := Csv.toTable name data
  match d.table? name with
  | none => return (d.put new, new.rows.length)
  | some t =>
    if t.name != name then throw .catalog
    let t ← append t new
    return (d.put t, t.rows.length)

end Database

end TableQuery
