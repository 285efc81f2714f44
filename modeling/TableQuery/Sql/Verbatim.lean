import TableQuery.Request.Basic
import TableQuery.Sql.Select

/-!
# Verbatim statements

For trusted callers a request becomes a statement without any check: names, filter
and order stand in it as they were given.
-/

namespace TableQuery.Sql.Verbatim

/-- The clause of a join to a base table. -/
def renderJoin (base : String) (j : JoinSpec) : String :=
  "INNER JOIN " ++ j.table ++ " ON " ++ base ++ "." ++ j.leftColumn ++ " = " ++ j.table ++ "." ++
    j.rightColumn

/-- The clauses of a statement in their order. -/
def clauses (r : Request) : List String :=
  ["SELECT " ++ (if r.hasProjection then String.intercalate ", " r.projection else "*"),
    "FROM " ++ r.table] ++
    r.joins.map (renderJoin r.table) ++
    (match given? r.filter with
      | some s => ["WHERE " ++ s]
      | none => []) ++
    (match given? r.orderBy with
      | some s => ["ORDER BY " ++ s]
      | none => []) ++
    (match r.limit with
      | some n => ["LIMIT " ++ n.repr]
      | none => []) ++
    (match r.offset with
      | some n => ["OFFSET " ++ n.repr]
      | none => [])

/-- The statement of a request as it was given. -/
def statement (r : Request) : Statement where
  sql := String.intercalate " " (clauses r)

end TableQuery.Sql.Verbatim
