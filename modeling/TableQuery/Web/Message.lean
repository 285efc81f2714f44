import TableQuery.Failure
import TableQuery.Fault
import TableQuery.Json.Basic
import TableQuery.ResultSet
import TableQuery.Storage.Files

/-!
# Calls and responses of the web service

A call names a method and a path and may carry a document or a file. A response has a
status, a body and possibly a warning in its header.
-/

namespace TableQuery.Web

/-- A file that a client sends, with its size in bytes. -/
structure Upload where
  name : String
  content : Content
  size : Nat

namespace Upload

/-- An upload of a text. -/
def ofText (name text : String) : Upload :=
  ⟨name, .text text, text.utf8ByteSize⟩

/-- About as many bytes as a workbook file of few cells takes. -/
def nominalSize (w : Workbook) : Nat :=
  4800 + 400 * w.sheets.length

/-- An upload of a workbook. -/
def ofWorkbook (name : String) (w : Workbook) : Upload :=
  ⟨name, .workbook w, nominalSize w⟩

end Upload

/-- What a call carries. -/
inductive Payload
  | none
  | document (text : String)
  | file (u : Upload)

/-- A call of a client. -/
structure Call where
  method : String
  path : String
  payload : Payload

/-- The body of a response. -/
inductive Body
  | document (j : Json)
  | records (rows : List (List (String × Primitive)))
  | failure (f : Failure)
  | detail (text : String)
  | faults (fs : List Fault)
  | file (disposition : String)

/-- The answer to a call. -/
structure Response where
  status : Nat
  body : Body
  warning : Option String := Option.none

namespace Response

/-- A response that a call succeeded. -/
def ok (body : Body) : Response :=
  ⟨200, body, Option.none⟩

/-- A response that refuses a call with a text. -/
def refusal (status : Nat) (text : String) : Response :=
  ⟨status, .detail text, Option.none⟩

/-- A response to a document with faults. A body that was not even parsed is refused
with a text. -/
def invalid (fs : List Fault) : Response :=
  if fs.any fun f => f.kind = .bodyUnread then refusal 400 FaultKind.bodyUnread.message
  else ⟨422, .faults (fs.map (Fault.under "body")), Option.none⟩

end Response

/-- The status for a kind of query error. -/
def statusOf : ErrorKind → Nat
  | .sourceNotFound | .sheetNotFound => 404
  | .configuration => 500
  | .timeout => 504
  | _ => 400

/-- The response to a failure. A failure that is neither a query error nor one of the
database is not answered. -/
def ofFailure : Failure → Except Failure Response
  | .query e => .ok ⟨statusOf e.kind, .failure (.query e), Option.none⟩
  | .database e => .ok ⟨400, .failure (.database e), Option.none⟩
  | f => .error f

end TableQuery.Web
