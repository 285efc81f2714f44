import TableQuery.Fault
import TableQuery.Request.IntegerText
import TableQuery.Text.Casing

/-!
# Settings

The settings of the program, read from named texts. Names are matched without regard
to case, and a name that occurs again replaces the earlier value. A blank path means
that a store is not configured.
-/

namespace TableQuery

open TableQuery.Text

/-- The settings of the program. -/
structure Settings where
  databasePath : Option String := some "data/playground.duckdb"
  workbookPath : Option String := some "data/playground.xlsx"
  uploadDir : String := "data/uploads"
  queryTimeout : Binary64 := Binary64.ofInt 30
  rawSqlFragments : Bool := false
  maxUploadBytes : Int := 50000000
  allowedOrigins : String := "http://localhost:3000"
  logLevel : String := "INFO"

namespace Settings

/-- The value of a setting among named texts. -/
def given? (env : List (String × String)) (name : String) : Option String :=
  ((env.reverse.find? fun (n, _) => lower n == name).map Prod.snd)

/-- A setting with its fault path. -/
def field {α : Type} (env : List (String × String)) (name : String) (fallback : α)
    (read : String → Checked α) : Checked α :=
  match given? env name with
  | some s => (read s).under name
  | none => .ok fallback

/-- A path, none when it is blank. -/
def readPath (s : String) : Checked (Option String) :=
  .ok (if isBlankText s then none else some s)

/-- A number without underscores at its ends or side by side. -/
def numberChars (s : List Char) : List Char :=
  IntegerText.stripUnderscores s

/-- The number that ASCII characters denote: a decimal, an infinity or the undefined
number. -/
def number? (s : List Char) : Option Binary64 :=
  match Binary64.named? s with
  | some x => some x
  | none => if s.all fun c => c.toNat < 128 then Binary64.decimal? s else none

/-- A number of seconds, which must be positive. -/
def readTimeout (s : String) : Checked Binary64 :=
  match number? (numberChars (stripBy IntegerText.isSpace s.toList)) with
  | none => .refuse .numberUnread
  | some x =>
    if !x.isNan && x.rank ≤ 0 then .refuse .timeoutNotPositive else .ok x

/-- The words for true. -/
def trueWords : List String := ["1", "true", "t", "yes", "y", "on"]

/-- The words for false. -/
def falseWords : List String := ["0", "false", "f", "no", "n", "off"]

/-- A truth value by one of its words. -/
def readTruth (s : String) : Checked Bool :=
  let word := lowerAscii s
  if trueWords.contains word then .ok true
  else if falseWords.contains word then .ok false
  else .refuse .truthUnread

/-- The levels of the log. -/
def levels : List String :=
  ["CRITICAL", "FATAL", "ERROR", "WARN", "WARNING", "INFO", "DEBUG", "NOTSET"]

/-- A level of the log, in capitals. -/
def readLevel (s : String) : Checked String :=
  let level := upper s
  if levels.contains level then .ok level else .refuse (.levelUnknown s)

/-- The settings that named texts describe. -/
def ofEnv (env : List (String × String)) : Checked Settings :=
  let fallback : Settings := {}
  let databasePath := field env "database_path" fallback.databasePath readPath
  let workbookPath := field env "workbook_path" fallback.workbookPath readPath
  let uploadDir := field env "upload_dir" fallback.uploadDir .ok
  let queryTimeout := field env "query_timeout" fallback.queryTimeout readTimeout
  let rawSqlFragments := field env "raw_sql_fragments" fallback.rawSqlFragments readTruth
  let maxUploadBytes := field env "max_upload_bytes" fallback.maxUploadBytes IntegerText.read
  let allowedOrigins := field env "allowed_origins" fallback.allowedOrigins .ok
  let logLevel := field env "log_level" fallback.logLevel readLevel
  match databasePath.both (workbookPath.both (uploadDir.both (queryTimeout.both
      (rawSqlFragments.both (maxUploadBytes.both (allowedOrigins.both logLevel)))))) with
  | .ok (databasePath, workbookPath, uploadDir, queryTimeout, rawSqlFragments, maxUploadBytes,
      allowedOrigins, logLevel) =>
    .ok { databasePath, workbookPath, uploadDir, queryTimeout, rawSqlFragments, maxUploadBytes,
          allowedOrigins, logLevel }
  | .error fs => .error fs

end Settings

end TableQuery
