import TableQuery.Json.Basic
import TableQuery.Text.Quoted

/-!
# Printing JSON

`Json.compact` prints a value on one line, `Json.pretty` over several lines with two
blanks for each level. Characters beyond ASCII print as they are.
-/

namespace TableQuery.Json

open TableQuery.Text

/-- A character inside a text. -/
def escaped (c : Char) : List Char :=
  if c = '"' then ['\\', '"']
  else if c = '\\' then ['\\', '\\']
  else if c = '\n' then ['\\', 'n']
  else if c = '\r' then ['\\', 'r']
  else if c = '\t' then ['\\', 't']
  else if c = '\x08' then ['\\', 'b']
  else if c = '\x0c' then ['\\', 'f']
  else if c.toNat < 32 then '\\' :: 'u' :: hexPadded 4 c.toNat
  else [c]

/-- A text in quotes. -/
def quote (s : String) : String :=
  String.ofList ('"' :: (s.toList.flatMap escaped ++ ['"']))

/-- A number with a point or an exponent, or one of the three special numbers. -/
def floatText : Binary64 → String
  | .nan => "NaN"
  | .infinite false => "Infinity"
  | .infinite true => "-Infinity"
  | x => x.literal

/-- A value that has no parts. -/
def plainText : Json → String
  | .bool b => if b then "true" else "false"
  | .int n => Binary64.intText n
  | .float x => floatText x
  | .text s => quote s
  | _ => "null"

/-- A line break and the blanks of a level. -/
def newline (level : Nat) : String :=
  String.ofList ('\n' :: List.replicate (2 * level) ' ')

/-- Parts between brackets, one to a line. -/
def block (opening closing : String) (level : Nat) (parts : List String) : String :=
  if parts.isEmpty then opening ++ closing
  else
    opening ++ newline (level + 1) ++
      String.intercalate ("," ++ newline (level + 1)) parts ++ newline level ++ closing

mutual

/-- A value on one line. -/
def compact : Json → String
  | .array items => "[" ++ String.intercalate "," (compactItems items) ++ "]"
  | .object members => "\x7b" ++ String.intercalate "," (compactMembers members) ++ "\x7d"
  | j => plainText j

/-- The items of an array, each on one line. -/
def compactItems : List Json → List String
  | [] => []
  | item :: items => compact item :: compactItems items

/-- The members of an object, each on one line. -/
def compactMembers : List (String × Json) → List String
  | [] => []
  | (name, value) :: members => (quote name ++ ":" ++ compact value) :: compactMembers members

end

mutual

/-- A value at a level, over several lines. -/
def prettyAt (level : Nat) : Json → String
  | .array items => block "[" "]" level (prettyItems (level + 1) items)
  | .object members => block "\x7b" "\x7d" level (prettyMembers (level + 1) members)
  | j => plainText j

/-- The items of an array at a level. -/
def prettyItems (level : Nat) : List Json → List String
  | [] => []
  | item :: items => prettyAt level item :: prettyItems level items

/-- The members of an object at a level. -/
def prettyMembers (level : Nat) : List (String × Json) → List String
  | [] => []
  | (name, value) :: members =>
    (quote name ++ ": " ++ prettyAt level value) :: prettyMembers level members

end

/-- A value over several lines. -/
def pretty (j : Json) : String :=
  prettyAt 0 j

end TableQuery.Json
