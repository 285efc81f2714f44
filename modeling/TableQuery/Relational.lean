import TableQuery.Database.Evaluate
import TableQuery.Database.Reader
import TableQuery.Sql.Compile

/-!
# Queries over databases

A request is compiled to a statement, whose plan is read from its text and evaluated
over the database. A verbatim statement has a plan when its fragments are plain names,
comparisons and directions.
-/

namespace TableQuery.Relational

/-- The plan of a request. -/
def plan (mode : Sql.Mode) (r : Request) : Except Failure Plan :=
  match mode with
  | .safe =>
    match Sql.compile .safe r with
    | .ok s =>
      match Plan.ofStatement? s with
      | some p => .ok p
      | none => .error (.database .malformed)
    | .error e => .error (.query e)
  | .raw =>
    match Plan.ofVerbatim? r with
    | some p => .ok p
    | none => .error (.database .malformed)

/-- The answer of a plan over a database with a catalog name, as rows of values. -/
def evaluate (catalog : String) (d : Database) (p : Plan) : Except Failure ResultSet :=
  match Evaluate.run catalog d p with
  | .error e => .error (.database e)
  | .ok answer =>
    match answer.toResultSet with
    | .ok result => .ok result
    | .error e => .error (.conversion e)

end TableQuery.Relational
