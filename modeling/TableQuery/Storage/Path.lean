import TableQuery.Text.Split

/-!
# Paths

A path is a list of parts below a root. Empty parts and dots between the slashes of a
text do not count, so different texts can give one path.
-/

namespace TableQuery

open TableQuery.Text

/-- A path by its parts. The root is empty for a relative path. -/
structure Path where
  root : String
  parts : List String
  deriving DecidableEq

namespace Path

/-- The root of a text: two slashes are kept, three count as one. -/
def rootOf : List Char → String
  | '/' :: '/' :: '/' :: _ => "/"
  | '/' :: '/' :: _ => "//"
  | '/' :: _ => "/"
  | _ => ""

/-- The path that a text denotes. -/
def ofText (s : String) : Path :=
  ⟨rootOf s.toList, (splitOn '/' s).filter fun part => part != "" && part != "."⟩

/-- The text of a path; the path without root and parts is a dot. -/
def text (p : Path) : String :=
  if p.root = "" ∧ p.parts = [] then "."
  else p.root ++ String.intercalate "/" p.parts

/-- The last part of a path, empty when there is none. -/
def name (p : Path) : String :=
  p.parts.getLastD ""

/-- A name cut in front of its last dot, unless the dot stands at either end. -/
def cutName (name : List Char) : List Char × List Char :=
  let after := (name.reverse.takeWhile (· != '.')).length
  let dot := name.length - after - 1
  if after = name.length ∨ after = 0 ∨ dot = 0 then (name, [])
  else (name.take dot, name.drop dot)

/-- The name without its suffix. -/
def stem (p : Path) : String :=
  String.ofList (cutName p.name.toList).1

/-- The suffix of the name with its dot, empty when there is none. -/
def suffix (p : Path) : String :=
  String.ofList (cutName p.name.toList).2

/-- The path lies below a directory or is it. -/
def isWithin (directory p : Path) : Bool :=
  p.root == directory.root && directory.parts.isPrefixOf p.parts

/-- A path with one more part. -/
def join (p : Path) (part : String) : Path :=
  { p with parts := p.parts ++ [part] }

end Path

end TableQuery
