/-!
# Cutting texts

Cutting at a separator, and replacing a piece. `cut` returns at least one piece.
-/

namespace TableQuery.Text

/-- The pieces of a list between the occurrences of a separator. -/
def cut (sep : Char) : List Char → List (List Char)
  | [] => [[]]
  | c :: s =>
    if c = sep then [] :: cut sep s
    else match cut sep s with
      | [] => [[c]]
      | piece :: rest => (c :: piece) :: rest

@[simp] theorem cut_nil (sep : Char) : cut sep [] = [[]] := rfl

theorem cut_ne_nil (sep : Char) (s : List Char) : cut sep s ≠ [] := by
  cases s with
  | nil => simp
  | cons c s =>
    simp only [cut]
    split
    · simp
    · split <;> simp

/-- The pieces of a text between the occurrences of a separator. -/
def splitOn (sep : Char) (s : String) : List String :=
  (cut sep s.toList).map String.ofList

/-- The text before the first occurrence of a separator and, when there is one,
the text after it. -/
def cutFirst (sep : Char) (s : List Char) : List Char × Option (List Char) :=
  match s with
  | [] => ([], none)
  | c :: rest =>
    if c = sep then ([], some rest)
    else ((c :: (cutFirst sep rest).1), (cutFirst sep rest).2)

/-- Replaces every occurrence of `old`, found from left to right, by `new`;
`skip` characters are still covered by the last occurrence found. -/
def replaceFrom (old new : List Char) (skip : Nat) : List Char → List Char
  | [] => []
  | c :: s =>
    match skip with
    | k + 1 => replaceFrom old new k s
    | 0 =>
      if !old.isEmpty && old.isPrefixOf (c :: s) then
        new ++ replaceFrom old new (old.length - 1) s
      else c :: replaceFrom old new 0 s

/-- A text with every occurrence of a non-empty piece replaced. -/
def replaceAll (old new s : String) : String :=
  String.ofList (replaceFrom old.toList new.toList 0 s.toList)

/-- A text that starts with a piece. -/
def startsWith (piece s : String) : Bool :=
  piece.toList.isPrefixOf s.toList

/-- A text that ends with a piece. -/
def endsWith (piece s : String) : Bool :=
  piece.toList.isSuffixOf s.toList

end TableQuery.Text
