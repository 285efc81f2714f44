import TableQuery.Binary64.Reader

/-!
# JSON values

The values of the JSON format, whole numbers apart from numbers with a point or an
exponent. An object lists its members in order; a repeated name keeps its place and
takes the later value.
-/

namespace TableQuery

/-- A JSON value. -/
inductive Json
  | null
  | bool (b : Bool)
  | int (n : Int)
  | float (x : Binary64)
  | text (s : String)
  | array (items : List Json)
  | object (members : List (String × Json))
  deriving Inhabited

namespace Json

/-- The members after one more, which replaces an earlier member of its name. -/
def putMember (name : String) (value : Json) : List (String × Json) → List (String × Json)
  | [] => [(name, value)]
  | (n, v) :: members =>
    if n = name then (n, value) :: members else (n, v) :: putMember name value members

/-- The member of an object with a name. -/
def member? (name : String) : Json → Option Json
  | .object members => members.lookup name
  | _ => none

/-- The items of an array, none of another value. -/
def items : Json → List Json
  | .array items => items
  | _ => []

/-- The text of a text, none of another value. -/
def text? : Json → Option String
  | .text s => some s
  | _ => none

end Json

end TableQuery
