import TableQuery.Sql.Identifier

/-!
# Lexemes of statements

A database reads the text of a statement as a list of lexemes: words, names in double
quotes, and marks. White space ends a word and is dropped.
-/

namespace TableQuery.Sql

open TableQuery.Text

/-- A piece of a statement as a database reads it. -/
inductive Lexeme
  | word (s : String)
  | name (s : String)
  | mark (c : Char)
  deriving DecidableEq

namespace Lexeme

/-- The word with the given characters in reverse, when there are any. -/
def ofWord (cs : List Char) : List Lexeme :=
  if cs.isEmpty then [] else [.word (String.ofList cs.reverse)]

mutual

/-- The lexemes of a text behind the characters of a word, which are given in reverse. -/
def ofChars (cs : List Char) : List Char → List Lexeme
  | [] => ofWord cs
  | c :: s =>
    if c = '"' then ofWord cs ++ ofQuoted [] s
    else if isPartTail c then ofChars (c :: cs) s
    else if isBlank c then ofWord cs ++ ofChars [] s
    else ofWord cs ++ .mark c :: ofChars [] s

/-- The lexemes of a text behind the characters of a name in quotes, which are given in
reverse. Quotes that are not closed are a mark. -/
def ofQuoted (cs : List Char) : List Char → List Lexeme
  | [] => [.mark '"']
  | c :: s =>
    if c = '"' then .name (String.ofList cs.reverse) :: ofChars [] s
    else ofQuoted (c :: cs) s

end

/-- The lexemes of a text. -/
def read (s : String) : List Lexeme :=
  ofChars [] s.toList

end Lexeme

end TableQuery.Sql
