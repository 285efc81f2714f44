import TableQuery.Sql.Verbatim

/-!
# Compiling requests

In the safe mode a request is read as a selection and refused when it is none; in
the raw mode it is taken verbatim.
-/

namespace TableQuery.Sql

/-- How the fragments of a request enter a statement. -/
inductive Mode
  | safe
  | raw
  deriving DecidableEq

/-- The statement of a request. -/
def compile (mode : Mode) (r : Request) : Except QueryError Statement :=
  match mode with
  | .safe => (Select.ofRequest r).map Select.statement
  | .raw => .ok (Verbatim.statement r)

end TableQuery.Sql
