/-!
# Faults of documents

What is wrong with a part of a document: the kind of fault, its wording, and the
path to the part.
-/

namespace TableQuery

/-- A kind of fault. -/
inductive FaultKind
  | missing
  | notText
  | notTuple
  | notInteger
  | integerUnread
  | integerFractional
  | integerTooLarge
  | notFinite
  | negative
  | notRecord (name : String)
  | noAttributes
  | brokenJson
  | bodyUnread
  | notUpload
  | numberUnread
  | truthUnread
  | timeoutNotPositive
  | levelUnknown (given : String)
  deriving DecidableEq

namespace FaultKind

/-- The code of a kind. -/
def code : FaultKind → String
  | .missing => "missing"
  | .notText => "string_type"
  | .notTuple => "tuple_type"
  | .notInteger => "int_type"
  | .integerUnread => "int_parsing"
  | .integerFractional => "int_from_float"
  | .integerTooLarge => "int_parsing_size"
  | .notFinite => "finite_number"
  | .negative => "greater_than_equal"
  | .notRecord _ => "model_type"
  | .noAttributes => "model_attributes_type"
  | .brokenJson => "json_invalid"
  | .numberUnread => "float_parsing"
  | .truthUnread => "bool_parsing"
  | .bodyUnread | .notUpload | .timeoutNotPositive | .levelUnknown _ => "value_error"

/-- The wording of a kind. -/
def message : FaultKind → String
  | .missing => "Field required"
  | .notText => "Input should be a valid string"
  | .notTuple => "Input should be a valid tuple"
  | .notInteger => "Input should be a valid integer"
  | .integerUnread => "Input should be a valid integer, unable to parse string as an integer"
  | .integerFractional => "Input should be a valid integer, got a number with a fractional part"
  | .integerTooLarge => "Unable to parse input string as an integer, exceeded maximum size"
  | .notFinite => "Input should be a finite number"
  | .negative => "Input should be greater than or equal to 0"
  | .notRecord name => "Input should be a valid dictionary or instance of " ++ name
  | .noAttributes => "Input should be a valid dictionary or object to extract fields from"
  | .brokenJson => "JSON decode error"
  | .bodyUnread => "There was an error parsing the body"
  | .notUpload => "Value error, Expected UploadFile, received: <class 'str'>"
  | .numberUnread => "Input should be a valid number, unable to parse string as a number"
  | .truthUnread => "Input should be a valid boolean, unable to interpret input"
  | .timeoutNotPositive => "Value error, QUERY_TIMEOUT must be a positive number of seconds"
  | .levelUnknown given => "Value error, LOG_LEVEL '" ++ given ++ "' is not a logging level"

end FaultKind

/-- A fault and the path to the part that has it. -/
structure Fault where
  kind : FaultKind
  path : List String
  deriving DecidableEq

namespace Fault

/-- A fault below a step of a path. -/
def under (step : String) (f : Fault) : Fault :=
  { f with path := step :: f.path }

end Fault

/-- A value, or everything that is wrong with its document. -/
abbrev Checked (α : Type) := Except (List Fault) α

namespace Checked

/-- Refuses a part for one reason. -/
def refuse {α : Type} (kind : FaultKind) : Checked α :=
  .error [⟨kind, []⟩]

/-- The same result with its faults below a step of a path. -/
def under {α : Type} (step : String) : Checked α → Checked α
  | .ok a => .ok a
  | .error faults => .error (faults.map (Fault.under step))

/-- Two results in one, the faults of the first before those of the second. -/
def both {α β : Type} : Checked α → Checked β → Checked (α × β)
  | .ok a, .ok b => .ok (a, b)
  | .ok _, .error fs => .error fs
  | .error fs, .ok _ => .error fs
  | .error fs, .error gs => .error (fs ++ gs)

/-- All results of a list in one, numbered by position from `n` on. -/
def all {α β : Type} (check : α → Checked β) : Nat → List α → Checked (List β)
  | _, [] => .ok []
  | n, a :: as =>
    match both (under n.repr (check a)) (all check (n + 1) as) with
    | .ok (b, bs) => .ok (b :: bs)
    | .error fs => .error fs

end Checked

end TableQuery
