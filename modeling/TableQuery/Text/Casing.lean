import TableQuery.Text.CaseTables
import TableQuery.Text.CasedTable

/-!
# Letter case

Full Unicode case mapping and case folding. Two texts match without regard to
case when their foldings are equal, and fold order is the order of code points
after folding.
-/

namespace TableQuery.Text

/-- The image of a code point under the runs of a mapping. -/
def applyRuns (runs : CaseRuns) (n : Nat) : Nat :=
  match runs.find? fun (first, last, step, _) =>
      first ≤ n && n ≤ last && (n - first) % step == 0 with
  | some (_, _, _, shift) => ((n : Int) + shift).toNat
  | none => n

/-- The image of a character beyond ASCII. -/
def applyTables (runs : CaseRuns) (expansions : CaseExpansions) (c : Char) : List Char :=
  match expansions.lookup c.toNat with
  | some ns => ns.map Char.ofNat
  | none => [Char.ofNat (applyRuns runs c.toNat)]

/-- The case folding of a character. -/
def foldChar (c : Char) : List Char :=
  if c.toNat < 128 then [c.toLower] else applyTables foldRuns foldExpansions c

/-- The lower-case mapping of a character that is not a capital sigma at the end
of a word. -/
def lowerChar (c : Char) : List Char :=
  if c.toNat < 128 then [c.toLower] else applyTables lowerRuns lowerExpansions c

/-- The upper-case mapping of a character. -/
def upperChar (c : Char) : List Char :=
  if c.toNat < 128 then [c.toUpper] else applyTables upperRuns upperExpansions c

/-- The characters of a text after case folding. -/
def fold (s : String) : List Char :=
  s.toList.flatMap foldChar

/-- A text in upper case. -/
def upper (s : String) : String :=
  String.ofList (s.toList.flatMap upperChar)

/-- Membership of a code point in a list of ranges. -/
def inRanges (ranges : List (Nat × Nat)) (n : Nat) : Bool :=
  ranges.any fun (first, last) => first ≤ n && n ≤ last

/-- A character with a case, other than one that case mapping looks through. -/
def isCased (c : Char) : Bool :=
  inRanges casedRanges c.toNat

/-- A character that case mapping looks through when it asks for the neighbours
of a sigma. -/
def isCaseIgnorable (c : Char) : Bool :=
  inRanges ignorableRanges c.toNat

/-- Whether the nearest character that counts is cased. -/
def nextIsCased (s : List Char) : Bool :=
  match s.dropWhile isCaseIgnorable with
  | [] => false
  | c :: _ => isCased c

/-- Lower case of the characters that follow `before`, which is read backwards.
A capital sigma that ends a word takes its final form. -/
def lowerFrom (before : List Char) : List Char → List Char
  | [] => []
  | c :: s =>
    (if c.toNat = 931 then
      [if nextIsCased before && !nextIsCased s then Char.ofNat 962 else Char.ofNat 963]
    else lowerChar c) ++ lowerFrom (c :: before) s

/-- A text in lower case. -/
def lower (s : String) : String :=
  String.ofList (lowerFrom [] s.toList)

/-- The representative of the characters that a case-blind pattern takes for one
another: the capital of the first character of the lower form. -/
def caseClass (c : Char) : List Char :=
  match lowerChar c with
  | [] => []
  | d :: _ => upperChar d

/-- Texts that are equal after case folding. -/
def sameFold (a b : String) : Bool :=
  fold a == fold b

theorem sameFold_iff (a b : String) : sameFold a b = true ↔ fold a = fold b := by
  simp [sameFold]

/-- The order of two texts after case folding, by code points. -/
def compareFold (a b : String) : Ordering :=
  compare (fold a) (fold b)

/-- An ASCII text in lower case, other characters kept. -/
def lowerAscii (s : String) : String :=
  String.ofList (s.toList.map Char.toLower)

end TableQuery.Text
