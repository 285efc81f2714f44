import TableQuery.Failure
import TableQuery.Text.Digit
import TableQuery.Text.Quoted

/-!
# Header values

Header values hold the first 256 characters only. The name of a file that is sent stands
in quotes when it has plain characters only, and in percent escapes of its bytes
otherwise.
-/

namespace TableQuery.Web

open TableQuery.Text

/-- A header value that can be sent. -/
def headerValue (s : String) : Except Failure String :=
  if s.toList.all fun c => c.toNat < 256 then .ok s else .error .headerUnencodable

/-- The header value of warnings, none when there are none. -/
def warningHeader (warnings : List String) : Except Failure (Option String) :=
  if warnings.isEmpty then .ok none
  else (headerValue (String.intercalate "; " warnings)).map some

/-- A character that stands for itself in a percent encoded name. -/
def isPlainChar (c : Char) : Bool :=
  isAsciiLetter c || isAsciiDigit c || ['_', '.', '-', '~', '/'].contains c

/-- A byte in a percent encoded name. -/
def percentByte (b : UInt8) : List Char :=
  let c := Char.ofNat b.toNat
  if b.toNat < 128 && isPlainChar c then [c]
  else '%' :: (hexPadded 2 b.toNat).map Char.toUpper

/-- A name in percent escapes. -/
def percentEncoded (name : String) : String :=
  String.ofList (name.toUTF8.toList.flatMap percentByte)

/-- The header value for sending a file under its name. -/
def disposition (name : String) : String :=
  let encoded := percentEncoded name
  if encoded = name then "attachment; filename=\"" ++ name ++ "\""
  else "attachment; filename*=utf-8''" ++ encoded

end TableQuery.Web
