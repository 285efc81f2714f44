import TableQuery.Request.Basic
import TableQuery.Request.IntegerText

/-!
# Reading requests

A request is read from a JSON object. Every field has one or more spellings, of which
the first that is present counts, even when its value is null. All faults are
reported, in the order of the fields. How integers are read from texts is a parameter.
-/

namespace TableQuery

namespace Request

/-- Where a document comes from: it decides how a value that is no object is
reported. -/
inductive Origin
  | document
  | web
  deriving DecidableEq

/-- The fault of a value that should be an object. -/
def Origin.notObject (o : Origin) (name : String) : FaultKind :=
  match o with
  | .document => .notRecord name
  | .web => .noAttributes

/-- The spelling of a field that is present, and its value. -/
def spelled? (members : List (String × Json)) (spellings : List String) : Option (String × Json) :=
  spellings.findSome? fun s => (members.lookup s).map (s, ·)

/-- A field that must be present. -/
def required {α : Type} (members : List (String × Json)) (spellings : List String)
    (read : Json → Checked α) : Checked α :=
  match spelled? members spellings with
  | some (s, value) => (read value).under s
  | none => (Checked.refuse .missing).under (spellings.headD "")

/-- A field that may be absent. -/
def optional {α : Type} (members : List (String × Json)) (spellings : List String)
    (fallback : α) (read : Json → Checked α) : Checked α :=
  match spelled? members spellings with
  | some (s, value) => (read value).under s
  | none => .ok fallback

/-- A text. -/
def readText : Json → Checked String
  | .text s => .ok s
  | _ => .refuse .notText

/-- A value or null. -/
def orNull {α : Type} (read : Json → Checked α) : Json → Checked (Option α)
  | .null => .ok none
  | j =>
    match read j with
    | .ok a => .ok (some a)
    | .error fs => .error fs

/-- An array of values. -/
def readArray {α : Type} (read : Json → Checked α) : Json → Checked (List α)
  | .array items => Checked.all read 0 items
  | _ => .refuse .notTuple

def leftColumnSpellings : List String := ["leftColumn", "left_column"]

def rightColumnSpellings : List String := ["rightColumn", "right_column"]

def orderSpellings : List String := ["orderBy", "order_by"]

def exportSpellings : List String := ["exportSheetName", "exportName", "export_sheet_name"]

/-- A join. -/
def readJoin (o : Origin) : Json → Checked JoinSpec
  | .object members =>
    let table := required members ["table"] readText
    let left := required members leftColumnSpellings readText
    let right := required members rightColumnSpellings readText
    match table.both (left.both right) with
    | .ok (table, left, right) => .ok ⟨table, left, right⟩
    | .error fs => .error fs
  | _ => .refuse (o.notObject "JoinSpec")

/-- The request in the members of an object. -/
def ofMembers (readInteger : String → Checked Int) (o : Origin)
    (members : List (String × Json)) : Checked Request :=
  let engine := required members ["engine"] readText
  let table := required members ["table"] readText
  let columns := optional members ["columns"] none (orNull (readArray readText))
  let joins := optional members ["joins"] [] (readArray (readJoin o))
  let filter := optional members ["filter"] none (orNull readText)
  let orderBy := optional members orderSpellings none (orNull readText)
  let limit := optional members ["limit"] none (orNull (IntegerText.countOfJson readInteger))
  let offset := optional members ["offset"] none (orNull (IntegerText.countOfJson readInteger))
  let exportSheet := optional members exportSpellings none (orNull readText)
  match engine.both (table.both (columns.both (joins.both (filter.both (orderBy.both
      (limit.both (offset.both exportSheet))))))) with
  | .ok (engine, table, columns, joins, filter, orderBy, limit, offset, exportSheet) =>
    .ok { engine, table, columns, joins, filter, orderBy, limit, offset, exportSheet }
  | .error fs => .error fs

/-- The request that a JSON value denotes, with a reader for the integers of texts. -/
def ofJsonBy (readInteger : String → Checked Int) (o : Origin) : Json → Checked Request
  | .object members => ofMembers readInteger o members
  | _ => .refuse (o.notObject "QueryRequest")

/-- The request that a JSON value denotes. -/
def ofJson : Origin → Json → Checked Request :=
  ofJsonBy IntegerText.read

/-- A text or null. -/
def textOrNull : Option String → Json
  | some s => .text s
  | none => .null

/-- A join as a JSON object. -/
def joinToJson (j : JoinSpec) : Json :=
  .object [("table", .text j.table), ("leftColumn", .text j.leftColumn),
    ("rightColumn", .text j.rightColumn)]

/-- A count as its decimal text, or null. -/
def countText : Option Nat → Json
  | some n => .text n.repr
  | none => .null

/-- A request as a JSON object, counts as decimal texts. -/
def toJson (r : Request) : Json :=
  .object [("engine", .text r.engine), ("table", .text r.table),
    ("columns", match r.columns with
      | some cs => .array (cs.map .text)
      | none => .null),
    ("joins", .array (r.joins.map joinToJson)), ("filter", textOrNull r.filter),
    ("orderBy", textOrNull r.orderBy), ("limit", countText r.limit),
    ("offset", countText r.offset), ("exportSheetName", textOrNull r.exportSheet)]

end Request

end TableQuery
