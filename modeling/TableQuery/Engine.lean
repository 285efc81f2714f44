import TableQuery.Failure
import TableQuery.Text.Blank
import TableQuery.Text.Casing

/-!
# Engines

A request runs either against the database or against a workbook. Engine names are
matched without regard to case and surrounding white space.
-/

namespace TableQuery

open TableQuery.Text

/-- The store that a request runs against. -/
inductive Engine
  | relational
  | tabular
  deriving DecidableEq

namespace Engine

/-- The name of an engine. -/
def name : Engine → String
  | .relational => "relational"
  | .tabular => "tabular"

/-- The engine with a name. -/
def ofName (given : Option String) : Except QueryError Engine :=
  let wanted := lower (trim (given.getD ""))
  if wanted = name .relational then .ok .relational
  else if wanted = name .tabular then .ok .tabular
  else .error (.engineUnknown given)

end Engine

end TableQuery
