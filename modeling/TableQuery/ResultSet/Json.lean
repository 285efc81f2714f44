import TableQuery.Json.Basic
import TableQuery.ResultSet

/-!
# Records as JSON

The record of a row is an object of its columns in order, and a result is the array of
its records.
-/

namespace TableQuery

/-- A primitive as a JSON value. -/
def Primitive.toJson : Primitive → Json
  | .null => .null
  | .text s => .text s
  | .int n => .int n
  | .float x => .float x

/-- A record as a JSON object. -/
def recordToJson (record : List (String × Primitive)) : Json :=
  .object (record.map fun (column, p) => (column, p.toJson))

/-- The records of a result as a JSON array. -/
def ResultSet.toJson (r : ResultSet) : Json :=
  .array (r.records.map recordToJson)

end TableQuery
