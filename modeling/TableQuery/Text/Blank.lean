/-!
# White space

`isBlank` is the white space that surrounds cell texts, names and numbers: the
Unicode white space together with the four information separators. `trim`
removes it at both ends and `words` cuts a text at its runs.
-/

namespace TableQuery.Text

/-- White space of any kind, the information separators U+001C to U+001F and the
next-line control included. -/
def isBlank (c : Char) : Bool :=
  let n := c.toNat
  (9 ≤ n && n ≤ 13) || (28 ≤ n && n ≤ 32) || n == 133 || n == 160 || n == 5760 ||
    (8192 ≤ n && n ≤ 8202) || n == 8232 || n == 8233 || n == 8239 || n == 8287 || n == 12288

/-- Removes the characters of a class at both ends. -/
def stripBy (p : Char → Bool) (s : List Char) : List Char :=
  ((s.dropWhile p).reverse.dropWhile p).reverse

@[simp] theorem stripBy_nil (p : Char → Bool) : stripBy p [] = [] := rfl

/-- The characters of a text without the white space at both ends. -/
def trimChars (s : String) : List Char :=
  stripBy isBlank s.toList

/-- A text without the white space at both ends. -/
def trim (s : String) : String :=
  String.ofList (trimChars s)

@[simp] theorem toList_trim (s : String) : (trim s).toList = trimChars s := by
  simp [trim]

/-- Nothing but white space. -/
def isBlankText (s : String) : Bool :=
  s.toList.all isBlank

/-- Cuts a text at its runs of white space; `cur` holds the word being read,
last character first. -/
def wordsFrom (cur : List Char) : List Char → List (List Char)
  | [] => if cur.isEmpty then [] else [cur.reverse]
  | c :: s =>
    if isBlank c then
      if cur.isEmpty then wordsFrom [] s else cur.reverse :: wordsFrom [] s
    else wordsFrom (c :: cur) s

/-- The words of a text, none of them empty. -/
def words (s : String) : List String :=
  (wordsFrom [] s.toList).map String.ofList

end TableQuery.Text
