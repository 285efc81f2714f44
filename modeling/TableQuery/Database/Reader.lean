import TableQuery.Database.Plan
import TableQuery.Sql.Lexeme

/-!
# Reading statements

A database reads the plan of a statement from its text. The lexemes are cut into clauses
at the words that start one, and the clauses are read in their order: the projection, the
base table, the joins, the condition, the order and the page. A placeholder stands for
the parameter with its number.
-/

namespace TableQuery.Plan

open TableQuery.Text TableQuery.Sql

/-- The words that start a clause. -/
def heads : List String := ["SELECT", "FROM", "INNER", "WHERE", "ORDER", "LIMIT", "OFFSET"]

/-- The word that starts a clause, and the lexemes behind it. -/
abbrev Segment := String × List Lexeme

/-- The lexemes before the first clause, and the clauses. -/
def segments : List Lexeme → List Lexeme × List Segment
  | [] => ([], [])
  | .word w :: ls =>
    let rest := segments ls
    if heads.contains w then ([], (w, rest.1) :: rest.2) else (.word w :: rest.1, rest.2)
  | l :: ls => (l :: (segments ls).1, (segments ls).2)

/-- A name: its parts with dots between them. -/
def readName? : List Lexeme → Option Name
  | [.name s] => some [s]
  | .name s :: .mark '.' :: ls => (readName? ls).map (s :: ·)
  | _ => none

/-- An entry of the projection: a star, a table with a star, or a column. -/
def readItem? (ls : List Lexeme) : Option PlanItem :=
  if ls = [.mark '*'] then some .all
  else if [.mark '.', .mark '*'].isSuffixOf ls then
    (readName? (ls.take (ls.length - 2))).map .allOf
  else (readName? ls).map .column

/-- A projection: its entries with commas between them. -/
def readItems? (ls : List Lexeme) : Option (List PlanItem) :=
  (ls.splitOn (.mark ',')).mapM readItem?

/-- The two sides of an equality. -/
def readSides? (ls : List Lexeme) : Option (List Lexeme × List Lexeme) :=
  match ls.splitOn (.mark '=') with
  | [left, right] => some (left, right)
  | _ => none

/-- A join behind the word that starts it. -/
def readJoin? : List Lexeme → Option PlanJoin
  | .word "JOIN" :: ls =>
    match ls.splitOn (.word "ON") with
    | [table, condition] => do
      let table ← readName? table
      let (left, right) ← readSides? condition
      return ⟨table, ← readName? left, ← readName? right⟩
    | _ => none
  | _ => none

/-- The number that a word denotes. -/
def readCount? : List Lexeme → Option Nat
  | [.word w] => if w.toList.all isAsciiDigit then some (digitsValue w.toList) else none
  | _ => none

/-- The text that a placeholder stands for. -/
def readParam? (params : List Datum) : List Lexeme → Option String
  | .mark '$' :: ls =>
    match readCount? ls with
    | some (n + 1) =>
      match params[n]? with
      | some (.text s) => some s
      | _ => none
    | _ => none
  | _ => none

/-- A condition: a column that equals a parameter. -/
def readCondition? (params : List Datum) (ls : List Lexeme) : Option PlanCondition := do
  let (column, value) ← readSides? ls
  return ⟨← readName? column, .equal, ← readParam? params value⟩

/-- An order behind the word that starts it. -/
def readOrder? : List Lexeme → Option (Name × Bool)
  | .word "BY" :: ls =>
    match ls.getLast? with
    | some (.word "DESC") => (readName? ls.dropLast).map (·, true)
    | some (.word "ASC") => (readName? ls.dropLast).map (·, false)
    | _ => none
  | _ => none

/-- The clauses in front that start with a word, and the clauses behind them. -/
def readAll? {α : Type} (head : String) (read : List Lexeme → Option α) :
    List Segment → Option (List α × List Segment)
  | [] => some ([], [])
  | (w, ls) :: rest =>
    if w = head then do
      let a ← read ls
      let (as, rest) ← readAll? head read rest
      return (a :: as, rest)
    else some ([], (w, ls) :: rest)

/-- The only element of a list that has at most one. -/
def atMostOne? {α : Type} : List α → Option (Option α)
  | [] => some none
  | [a] => some (some a)
  | _ => none

/-- The plan of the clauses of a statement with parameters. -/
def ofSegments? (params : List Datum) (clauses : List Segment) : Option Plan := do
  let (items, rest) ← readAll? "SELECT" readItems? clauses
  let (tables, rest) ← readAll? "FROM" readName? rest
  let (joins, rest) ← readAll? "INNER" readJoin? rest
  let (conditions, rest) ← readAll? "WHERE" (readCondition? params) rest
  let (orders, rest) ← readAll? "ORDER" readOrder? rest
  let (limits, rest) ← readAll? "LIMIT" readCount? rest
  let (offsets, rest) ← readAll? "OFFSET" readCount? rest
  match items, tables, rest with
  | [items], [table], [] =>
    return ⟨items, table, joins, ← atMostOne? conditions, ← atMostOne? orders,
      ← atMostOne? limits, ← atMostOne? offsets⟩
  | _, _, _ => none

/-- The plan of a statement as a database reads it. -/
def ofStatement? (s : Statement) : Option Plan :=
  match segments (Lexeme.read s.sql) with
  | ([], clauses) => ofSegments? s.params clauses
  | _ => none

end TableQuery.Plan
