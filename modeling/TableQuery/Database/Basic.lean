import TableQuery.Database.Type
import TableQuery.Text.Casing

/-!
# Databases

A database is a list of typed tables. Names of tables and columns are matched without
regard to ASCII case.
-/

namespace TableQuery

open TableQuery.Text

/-- A typed table; each row has a value for every column. -/
structure TableData where
  name : String
  columns : List (String × ColumnType)
  rows : List (List Datum)

/-- The tables of a database file. -/
structure Database where
  tables : List TableData := []

/-- The number of rows and columns of a table. -/
structure TableInfo where
  table : String
  rows : Nat
  columns : Nat

/-- Equality of names without regard to ASCII case. -/
def sameName (a b : String) : Bool :=
  lowerAscii a == lowerAscii b

namespace Database

/-- The table with a name. -/
def table? (d : Database) (name : String) : Option TableData :=
  d.tables.find? fun t => sameName t.name name

/-- The database without the table of a name. -/
def drop (d : Database) (name : String) : Database :=
  ⟨d.tables.filter fun t => !sameName t.name name⟩

/-- The database with a table in place of the one of its name, or with a new one. -/
def put (d : Database) (t : TableData) : Database :=
  if (d.table? t.name).isSome then
    ⟨d.tables.map fun old => if sameName old.name t.name then t else old⟩
  else ⟨d.tables ++ [t]⟩

/-- The names of the tables in order. -/
def tableNames (d : Database) : List String :=
  (d.tables.map TableData.name).mergeSort fun a b =>
    (compare (ColumnType.bytesOf a) (ColumnType.bytesOf b)).isLE

/-- The size of the table with a name. -/
def infoOf (d : Database) (name : String) : TableInfo :=
  match d.tables.find? fun t => t.name == name with
  | some t => ⟨name, t.rows.length, t.columns.length⟩
  | none => ⟨name, 0, 0⟩

/-- The sizes of the tables in the order of their names. -/
def info (d : Database) : List TableInfo :=
  d.tableNames.map d.infoOf

/-- A table of data given column by column type; a value that its column cannot hold
is refused. -/
def tableOf (name : String) (columns : List (String × ColumnType)) (rows : List (List Datum)) :
    Option TableData :=
  (rows.mapM fun row =>
    (columns.zip row).mapM fun (cell : (String × ColumnType) × Datum) =>
      cell.1.2.store? cell.2).map fun rows => ⟨name, columns, rows⟩

end Database

end TableQuery
