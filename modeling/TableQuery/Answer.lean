import TableQuery.ResultSet

/-!
# Answers of a driver

A driver answers with named columns and rows of what it delivers. `toResultSet` makes rows
of values of them: the pairs of a column and a delivered value are assigned in order, so a
column that occurs twice holds its last value, and pairing stops at the shorter side.
-/

namespace TableQuery

/-- Columns by name and rows of what is delivered for them. -/
structure AnswerOf (α : Type) where
  columns : List String
  rows : List (List α)

/-- An answer of a driver. -/
abbrev DriverAnswer := AnswerOf Native

/-- An answer of stored data. -/
abbrev Answer := AnswerOf Datum

namespace AnswerOf

variable {α : Type}

section Reading

variable (value : α → Except ConversionError Value)

/-- The cells of named data. The first one without a counterpart among the values stops
the reading. -/
def cells : List (String × α) → Except ConversionError (List (String × Value))
  | [] => .ok []
  | (name, a) :: rest =>
    match value a with
    | .error e => .error e
    | .ok v => (cells rest).map fun cells => (name, v) :: cells

@[simp] theorem cells_nil : cells value [] = .ok [] := rfl

/-- The row of a list of columns and a list of data. -/
def rowOf (columns : List String) (data : List α) : Except ConversionError Row :=
  (cells value (columns.zip data)).map Row.ofList

/-- The rows of a list of columns and lists of data. -/
def rowsOf (columns : List String) : List (List α) → Except ConversionError (List Row)
  | [] => .ok []
  | data :: rest =>
    match rowOf value columns data with
    | .error e => .error e
    | .ok row => (rowsOf columns rest).map fun rows => row :: rows

@[simp] theorem rowsOf_nil (columns : List String) : rowsOf value columns [] = .ok [] := rfl

/-- The rows of values of an answer. -/
def read (a : AnswerOf α) : Except ConversionError ResultSet :=
  (rowsOf value a.columns a.rows).map fun rows => { rows }

end Reading

end AnswerOf

/-- The rows of values of an answer of a driver. -/
def DriverAnswer.toResultSet (a : DriverAnswer) : Except ConversionError ResultSet :=
  a.read Value.ofNative

namespace Answer

/-- The row of a list of columns and a list of stored data. -/
def rowOf (columns : List String) (data : List Datum) : Except ConversionError Row :=
  AnswerOf.rowOf Value.ofDatum columns data

/-- The rows of values of an answer of stored data. -/
def toResultSet (a : Answer) : Except ConversionError ResultSet :=
  a.read Value.ofDatum

end Answer

end TableQuery
