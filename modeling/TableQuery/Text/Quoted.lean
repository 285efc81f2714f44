import TableQuery.Text.Casing
import TableQuery.Text.HiddenTable

/-!
# Quoted texts

The literal form of a text or of bytes inside a printed list or a message: single
quotes unless the text holds one and no double quote, backslash escapes, and
hidden characters by number.
-/

namespace TableQuery.Text

/-- The lower-case hexadecimal digits of a number, padded to `width`. -/
def hexPadded (width n : Nat) : List Char :=
  let ds := Nat.toDigits 16 n
  List.replicate (width - ds.length) '0' ++ ds

/-- The quote that a literal of these characters stands in. -/
def quoteFor (s : List Char) : Char :=
  if s.contains '\'' && !s.contains '"' then '"' else '\''

/-- A character beyond ASCII without a visible form. -/
def isHidden (c : Char) : Bool :=
  inRanges hiddenRanges c.toNat

/-- A code point by number, in the shortest of the three forms. -/
def numberEscape (n : Nat) : List Char :=
  if n < 256 then '\\' :: 'x' :: hexPadded 2 n
  else if n < 65536 then '\\' :: 'u' :: hexPadded 4 n
  else '\\' :: 'U' :: hexPadded 8 n

/-- A character inside a literal with the given quote. -/
def quoteChar (quote c : Char) : List Char :=
  if c == quote || c == '\\' then ['\\', c]
  else if c == '\t' then ['\\', 't']
  else if c == '\n' then ['\\', 'n']
  else if c == '\r' then ['\\', 'r']
  else
    let n := c.toNat
    if n < 32 || n == 127 then numberEscape n
    else if n < 127 then [c]
    else if isHidden c then numberEscape n
    else [c]

/-- The literal form of a text. -/
def quoted (s : String) : String :=
  let q := quoteFor s.toList
  String.ofList (q :: (s.toList.flatMap (quoteChar q) ++ [q]))

/-- A byte inside a literal with the given quote. -/
def quoteByte (quote : Char) (b : Nat) : List Char :=
  if b < 128 then quoteChar quote (Char.ofNat b) else numberEscape b

/-- The literal form of a list of bytes. -/
def quotedBytes (bs : List Nat) : String :=
  let q := quoteFor (bs.map Char.ofNat)
  String.ofList ('b' :: q :: (bs.flatMap (quoteByte q) ++ [q]))

end TableQuery.Text
