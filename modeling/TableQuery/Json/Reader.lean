import TableQuery.Json.Basic

/-!
# Reading JSON

`Json.read` reads one value with white space around it. Where the text goes wrong it
gives the position that is reported, counted in characters. The names of the
undefined number and of the infinities are read too. A whole number of more than
`maxDigits` digits is refused.
-/

namespace TableQuery.Json

open TableQuery.Text

/-- Why a text is not read: it goes wrong at a position, or has a whole number of too
many digits. -/
inductive Unread
  | broken (position : Nat)
  | tooLong
  deriving DecidableEq

/-- The most digits of a whole number. -/
def maxDigits : Nat := 4300

/-- The rest of a text and the position where it starts. -/
structure Cursor where
  pos : Nat
  rest : List Char

namespace Cursor

/-- The cursor some characters further on. -/
def advance (n : Nat) (c : Cursor) : Cursor :=
  ⟨c.pos + n, c.rest.drop n⟩

/-- White space between the tokens. -/
def isSpace (c : Char) : Bool :=
  c == ' ' || c == '\t' || c == '\n' || c == '\r'

/-- The cursor after white space. -/
def skipSpace (c : Cursor) : Cursor :=
  c.advance (c.rest.takeWhile isSpace).length

end Cursor

/-- The value of a hexadecimal digit. -/
def hexValue? (c : Char) : Option Nat :=
  let n := c.toNat
  if 48 ≤ n ∧ n ≤ 57 then some (n - 48)
  else if 97 ≤ n ∧ n ≤ 102 then some (n - 87)
  else if 65 ≤ n ∧ n ≤ 70 then some (n - 55)
  else none

/-- The number that four hexadecimal digits denote. -/
def hex4? (s : List Char) : Option Nat :=
  match s.take 4 with
  | [a, b, c, d] =>
    match hexValue? a, hexValue? b, hexValue? c, hexValue? d with
    | some a, some b, some c, some d => some (((a * 16 + b) * 16 + c) * 16 + d)
    | _, _, _, _ => none
  | _ => none

/-- The character after a backslash, other than a number. -/
def escape? (c : Char) : Option Char :=
  match c with
  | '"' => some '"'
  | '\\' => some '\\'
  | '/' => some '/'
  | 'b' => some '\x08'
  | 'f' => some '\x0c'
  | 'n' => some '\n'
  | 'r' => some '\r'
  | 't' => some '\t'
  | _ => none

/-- A character given by number: the character, and how many characters after the
`u` it takes. The position is that of the `u`. -/
def unicodeEscape (pos : Nat) (s : List Char) : Except Unread (Char × Nat) :=
  if s.length < 5 then .error (.broken pos)
  else
    match hex4? s with
    | none => .error (.broken pos)
    | some n =>
      let low := s.drop 4
      if 0xD800 ≤ n ∧ n < 0xDC00 ∧ ['\\', 'u'].isPrefixOf low ∧ 7 ≤ low.length then
        match hex4? (low.drop 2) with
        | none => .error (.broken (pos + 6))
        | some m =>
          if 0xDC00 ≤ m ∧ m < 0xE000 then
            .ok (Char.ofNat (0x10000 + (n - 0xD800) * 1024 + (m - 0xDC00)), 10)
          else .ok (Char.ofNat n, 4)
      else .ok (Char.ofNat n, 4)

/-- The characters of a text up to its closing quote. `start` is the position of the
opening quote, and `skip` characters belong to an escape that has been read. -/
def readText (start : Nat) (skip : Nat) (pos : Nat) (acc : List Char) :
    List Char → Except Unread (String × Cursor)
  | [] => .error (.broken start)
  | c :: rest =>
    match skip with
    | k + 1 => readText start k (pos + 1) acc rest
    | 0 =>
      if c = '"' then .ok (String.ofList acc.reverse, ⟨pos + 1, rest⟩)
      else if c.toNat < 32 then .error (.broken pos)
      else if c = '\\' then
        match rest with
        | [] => .error (.broken start)
        | 'u' :: digits =>
          match unicodeEscape (pos + 1) digits with
          | .error e => .error e
          | .ok (d, n) => readText start (n + 1) (pos + 1) (d :: acc) rest
        | d :: _ =>
          match escape? d with
          | some e => readText start 1 (pos + 1) (e :: acc) rest
          | none => .error (.broken pos)
      else readText start 0 (pos + 1) (c :: acc) rest

/-- The words that stand for values. -/
def words : List (List Char × Json) :=
  [("null".toList, .null), ("true".toList, .bool true), ("false".toList, .bool false),
    ("NaN".toList, .float .nan), ("Infinity".toList, .float (.infinite false)),
    ("-Infinity".toList, .float (.infinite true))]

/-- The digits of a whole number at the start of a text: zero, or digits of which the
first is not zero. -/
def wholeDigits (s : List Char) : List Char :=
  match s with
  | '0' :: _ => ['0']
  | _ => s.takeWhile isAsciiDigit

/-- The fraction at the start of a text, with its point. -/
def fractionDigits (s : List Char) : List Char :=
  match s with
  | '.' :: rest =>
    let ds := rest.takeWhile isAsciiDigit
    if ds.isEmpty then [] else '.' :: ds
  | _ => []

/-- The exponent at the start of a text, with its mark and sign. -/
def exponentDigits (s : List Char) : List Char :=
  match s with
  | [] => []
  | e :: rest =>
    if e = 'e' ∨ e = 'E' then
      let (sign, body) : List Char × List Char := match rest with
        | '+' :: body => (['+'], body)
        | '-' :: body => (['-'], body)
        | body => ([], body)
      let ds := body.takeWhile isAsciiDigit
      if ds.isEmpty then [] else e :: (sign ++ ds)
    else []

/-- A number, which must start where the cursor is. -/
def readNumber (c : Cursor) : Except Unread (Json × Cursor) :=
  let negative := ['-'].isPrefixOf c.rest
  let body := if negative then c.rest.drop 1 else c.rest
  let whole := wholeDigits body
  if whole.isEmpty then .error (.broken c.pos)
  else
    let afterWhole := body.drop whole.length
    let fraction := fractionDigits afterWhole
    let exponent := exponentDigits (afterWhole.drop fraction.length)
    let length := (if negative then 1 else 0) + whole.length + fraction.length + exponent.length
    if fraction.isEmpty && exponent.isEmpty then
      if maxDigits < whole.length then .error .tooLong
      else
        let n : Int := digitsValue whole
        .ok (.int (if negative then -n else n), c.advance length)
    else
      .ok (.float (Binary64.ofParts negative whole (fraction.drop 1)
        ((Binary64.exponent? (exponent.drop 1)).getD 0)), c.advance length)

/-- A word or a number. -/
def readPlain (c : Cursor) : Except Unread (Json × Cursor) :=
  match words.find? fun (word, _) => word.isPrefixOf c.rest with
  | some (word, value) => .ok (value, c.advance word.length)
  | none => readNumber c

mutual

/-- The value that starts where the cursor is. -/
def readValue : Nat → Cursor → Except Unread (Json × Cursor)
  | 0, c => .error (.broken c.pos)
  | fuel + 1, c =>
    match c.rest with
    | '"' :: rest =>
      match readText c.pos 0 (c.pos + 1) [] rest with
      | .error e => .error e
      | .ok (s, after) => .ok (.text s, after)
    | '[' :: _ =>
      let body := (c.advance 1).skipSpace
      match body.rest with
      | ']' :: _ => .ok (.array [], body.advance 1)
      | _ => readItems fuel [] body
    | '\x7b' :: _ =>
      let body := (c.advance 1).skipSpace
      match body.rest with
      | '\x7d' :: _ => .ok (.object [], body.advance 1)
      | _ => readMembers fuel [] body
    | _ => readPlain c

/-- The items of an array from one item on; `acc` holds the earlier ones, last
first. -/
def readItems : Nat → List Json → Cursor → Except Unread (Json × Cursor)
  | 0, _, c => .error (.broken c.pos)
  | fuel + 1, acc, c =>
    match readValue fuel c with
    | .error e => .error e
    | .ok (item, after) =>
      let next := after.skipSpace
      match next.rest with
      | ']' :: _ => .ok (.array (item :: acc).reverse, next.advance 1)
      | ',' :: _ => readItems fuel (item :: acc) (next.advance 1).skipSpace
      | _ => .error (.broken next.pos)

/-- The members of an object from one member on. -/
def readMembers : Nat → List (String × Json) → Cursor → Except Unread (Json × Cursor)
  | 0, _, c => .error (.broken c.pos)
  | fuel + 1, members, c =>
    match c.rest with
    | '"' :: rest =>
      match readText c.pos 0 (c.pos + 1) [] rest with
      | .error e => .error e
      | .ok (name, after) =>
        let colon := after.skipSpace
        match colon.rest with
        | ':' :: _ =>
          match readValue fuel (colon.advance 1).skipSpace with
          | .error e => .error e
          | .ok (value, after) =>
            let members := putMember name value members
            let next := after.skipSpace
            match next.rest with
            | '\x7d' :: _ => .ok (.object members, next.advance 1)
            | ',' :: _ => readMembers fuel members (next.advance 1).skipSpace
            | _ => .error (.broken next.pos)
        | _ => .error (.broken colon.pos)
    | _ => .error (.broken c.pos)

end

/-- The value that a text denotes, or why there is none. -/
def read (s : String) : Except Unread Json :=
  let start : Cursor := (Cursor.mk 0 s.toList).skipSpace
  match readValue (s.length + 1) start with
  | .error e => .error e
  | .ok (value, after) =>
    let last := after.skipSpace
    if last.rest.isEmpty then .ok value else .error (.broken last.pos)

end TableQuery.Json
