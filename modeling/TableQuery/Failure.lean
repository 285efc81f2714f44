import TableQuery.Rows.Join
import TableQuery.Text.Quoted
import TableQuery.Value.Basic

/-!
# Failures

`QueryError` lists why a query is refused, with the kind and the wording of each
reason. `Failure` adds what a store or a conversion refuses.
-/

namespace TableQuery

/-- Why a query is refused. -/
inductive QueryError
  | workbookUnset
  | databaseUnset
  | workbookMissing (path : String)
  | databaseMissing (path : String)
  | sheetMissing (name : String)
  | engineUnknown (name : Option String)
  | joinKeyMissing (key : MissingKey)
  | identifierInvalid (field value : String)
  | filterUnsupported (text : String)
  | orderUnsupported (text : String)
  | columnRepeated (sheet column : String)
  | deadlinePassed (seconds stage : String)
  | exportFailed (sheet reason : String)

/-- The kinds of query errors. -/
inductive ErrorKind
  | configuration
  | sourceNotFound
  | sheetNotFound
  | unsupportedEngine
  | joinKeyNotFound
  | unsafeExpression
  | sheetFormat
  | timeout
  | exporting
  deriving DecidableEq

namespace ErrorKind

/-- The name under which a kind is reported. -/
def name : ErrorKind → String
  | .configuration => "ConfigurationError"
  | .sourceNotFound => "SourceNotFound"
  | .sheetNotFound => "SheetNotFound"
  | .unsupportedEngine => "UnsupportedEngine"
  | .joinKeyNotFound => "JoinKeyNotFound"
  | .unsafeExpression => "UnsafeExpression"
  | .sheetFormat => "SheetFormatError"
  | .timeout => "QueryTimeout"
  | .exporting => "ExportError"

end ErrorKind

namespace QueryError

/-- The kind of a reason. -/
def kind : QueryError → ErrorKind
  | .workbookUnset | .databaseUnset => .configuration
  | .workbookMissing _ | .databaseMissing _ => .sourceNotFound
  | .sheetMissing _ => .sheetNotFound
  | .engineUnknown _ => .unsupportedEngine
  | .joinKeyMissing _ => .joinKeyNotFound
  | .identifierInvalid .. | .filterUnsupported _ | .orderUnsupported _ => .unsafeExpression
  | .columnRepeated .. => .sheetFormat
  | .deadlinePassed .. => .timeout
  | .exportFailed .. => .exporting

/-- The wording of a reason. -/
def message : QueryError → String
  | .workbookUnset => "Excel file path not configured (WORKBOOK_PATH)."
  | .databaseUnset => "Database path not configured (DATABASE_PATH)."
  | .workbookMissing path => "Excel file not found: " ++ path
  | .databaseMissing path => "Database file not found: " ++ path
  | .sheetMissing name => "Sheet '" ++ name ++ "' not found in Excel workbook."
  | .engineUnknown name => "Engine " ++ name.getD "None" ++ " is not supported."
  | .joinKeyMissing ⟨.right, column⟩ => "Join column '" ++ column ++ "' not found in right rows"
  | .joinKeyMissing ⟨.left, column⟩ => "Join column '" ++ column ++ "' not found in left rows"
  | .identifierInvalid field value =>
    "Invalid " ++ field ++ ": '" ++ value ++
      "'. Expected letters, digits and underscores (optionally table.column)"
  | .filterUnsupported text => "Unsupported filter: '" ++ text ++ "'. Expected: column = value"
  | .orderUnsupported text =>
    "Unsupported order: '" ++ text ++ "'. Expected: column [ASC|DESC]"
  | .columnRepeated sheet column =>
    "Sheet '" ++ sheet ++ "' has duplicate column '" ++ column ++ "'"
  | .deadlinePassed seconds stage =>
    "Query exceeded " ++ seconds ++ "s deadline during " ++ stage
  | .exportFailed sheet reason => "Export to sheet '" ++ sheet ++ "' failed: " ++ reason

end QueryError

/-- Why the database refuses a statement. -/
inductive DatabaseError
  | catalog
  | binder
  | conversion
  | malformed
  | unreadable
  deriving DecidableEq

namespace DatabaseError

/-- The name under which a refusal is reported. -/
def name : DatabaseError → String
  | .catalog => "CatalogException"
  | .binder => "BinderException"
  | .conversion => "ConversionException"
  | .malformed => "ParserException"
  | .unreadable => "IOException"

end DatabaseError

/-- Why an operation ends without an answer. -/
inductive Failure
  | query (e : QueryError)
  | database (e : DatabaseError)
  | conversion (e : ConversionError)
  | tableNameInvalid (name : String)
  | titleInvalid (c : Char)
  | columnInvalid (n : Nat)
  | rowInvalid (n : Nat)
  | cellIllegal (text : String)
  | notAWorkbook
  | formatUnknown (suffix : String)
  | isDirectory (path : String)
  | notAFile (path : String)
  | noSheets
  | headerUnencodable
  | cellUnsupported (literal : String)
  | zonedCell
  | fileMissing (path : String)
  | csvEmpty
  | csvRagged (expected line seen : Nat)
  | csvOpenQuote (line : Nat)

namespace Failure

/-- The name under which a failure is reported. -/
def name : Failure → String
  | .query e => e.kind.name
  | .database e => e.name
  | .conversion .signalingNan => "ValueError"
  | .conversion (.unprinted fault) => fault.name
  | .conversion _ => "OverflowError"
  | .tableNameInvalid _ | .titleInvalid _ | .columnInvalid _ | .rowInvalid _ => "ValueError"
  | .cellUnsupported _ => "ValueError"
  | .cellIllegal _ => "IllegalCharacterError"
  | .notAWorkbook => "BadZipFile"
  | .formatUnknown _ => "InvalidFileException"
  | .isDirectory _ => "IsADirectoryError"
  | .notAFile _ => "RuntimeError"
  | .headerUnencodable => "UnicodeEncodeError"
  | .noSheets => "IndexError"
  | .zonedCell => "TypeError"
  | .fileMissing _ => "FileNotFoundError"
  | .csvEmpty => "EmptyDataError"
  | .csvRagged .. | .csvOpenQuote _ => "ParserError"

/-- The formats of workbook files by suffix. -/
def workbookFormats : List String := [".xlsx", ".xlsm", ".xltx", ".xltm"]

/-- The wording for a file of another format. -/
def formatMessage (suffix : String) : String :=
  if suffix = ".xls" then
    "openpyxl does not support the old .xls file format, please use xlrd to read this file, " ++
      "or convert it to the more recent .xlsx file format."
  else if suffix = ".xlsb" then
    "openpyxl does not support binary format .xlsb, please convert this file to .xlsx format " ++
      "if you want to open it with openpyxl"
  else
    "openpyxl does not support " ++ suffix ++ " file format, please check you can open it with " ++
      "Excel first. Supported formats are: " ++ String.intercalate "," workbookFormats

/-- The wording of a failure, where it is fixed. -/
def message? : Failure → Option String
  | .query e => some e.message
  | .database _ => none
  | .conversion .integerTooLarge => some "int too large to convert to float"
  | .conversion .signalingNan => some "cannot convert signaling NaN to float"
  | .conversion .outOfRange => some "date value out of range"
  | .conversion (.unprinted fault) => some fault.message
  | .tableNameInvalid name => some ("Invalid table name: '" ++ name ++ "'")
  | .titleInvalid c => some ("Invalid character " ++ c.toString ++ " found in sheet title")
  | .columnInvalid n => some ("Invalid column index " ++ n.repr)
  | .rowInvalid n =>
    some ("Row numbers must be between 1 and 1048576. Row number supplied was " ++ n.repr)
  | .cellIllegal text => some (text ++ " cannot be used in worksheets.")
  | .notAWorkbook => some "File is not a zip file"
  | .formatUnknown suffix => some (formatMessage suffix)
  | .isDirectory path => some ("[Errno 21] Is a directory: " ++ Text.quoted path)
  | .notAFile path => some ("File at path " ++ path ++ " is not a file.")
  | .headerUnencodable => none
  | .noSheets => some "At least one sheet must be visible"
  | .cellUnsupported literal => some ("Cannot convert " ++ literal ++ " to Excel")
  | .zonedCell =>
    some ("Excel does not support timezones in datetimes. " ++
      "The tzinfo in the datetime/time object must be set to None.")
  | .fileMissing path => some ("[Errno 2] No such file or directory: " ++ Text.quoted path)
  | .csvEmpty => some "No columns to parse from file"
  | .csvRagged expected line seen =>
    some ("Error tokenizing data. C error: Expected " ++ expected.repr ++ " fields in line " ++
      line.repr ++ ", saw " ++ seen.repr ++ "\n")
  | .csvOpenQuote line =>
    some ("Error tokenizing data. C error: EOF inside string starting at row " ++ line.repr)

/-- The failure of a key that leaves the calendar. -/
def ofOutOfRange (_ : Calendar.OutOfRange) : Failure :=
  .conversion .outOfRange

/-- The failure of a join. -/
def ofMissingKey (key : MissingKey) : Failure :=
  .query (.joinKeyMissing key)

end Failure

end TableQuery
