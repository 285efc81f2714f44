import TableQuery.Binary64.Reader
import TableQuery.Request.JoinText
import TableQuery.Text.Quoted
import TableQuery.Text.Split

/-!
# Arguments

An argument list gives options by name and values by position. An option may be cut
short as long as only one option starts that way, and its value may follow an equals
sign. After a double dash every argument is a value. What is wrong is reported for the
first argument that shows it; missing and superfluous arguments are reported last.
-/

namespace TableQuery.CommandLine

open TableQuery.Text

/-- How many values an option takes: none, one, or one and more. -/
inductive Arity
  | none
  | one
  | several
  deriving DecidableEq

/-- What the value of an option must be. -/
inductive ValueKind
  | text
  | integer
  | number
  | join
  deriving DecidableEq

/-- An option with its spellings. -/
structure OptionSpec where
  spellings : List String
  arity : Arity := .one
  kind : ValueKind := .text
  required : Bool := false
  deriving DecidableEq

/-- The options and the values by position that a command takes. -/
structure CommandSpec where
  positionals : List String := []
  options : List OptionSpec

/-- What is wrong with an argument list. -/
inductive UsageError
  | ambiguous (given : String) (candidates : List String)
  | valueMissing (option : String) (arity : Arity)
  | valueUnwanted (option value : String)
  | valueRefused (option : String) (kind : ValueKind) (value : String)
  | missing (names : List String)
  | unrecognized (arguments : List String)
  deriving DecidableEq

/-- Why an argument list starts no command: the help is asked for, or something is
wrong. -/
inductive Stop
  | help
  | usage (e : UsageError)

namespace OptionSpec

/-- The name of an option: all its spellings. -/
def name (o : OptionSpec) : String :=
  String.intercalate "/" o.spellings

end OptionSpec

namespace ValueKind

/-- The longest integer that is read. -/
def maxDigits : Nat := 4300

/-- The integer that a value denotes. -/
def integer? (s : String) : Option Int :=
  if maxDigits < (s.toList.filter isDigit).length then Option.none
  else Binary64.intOfText? s

/-- A value is of a kind. -/
def accepts (kind : ValueKind) (s : String) : Bool :=
  match kind with
  | .text => true
  | .integer => (integer? s).isSome
  | .number => (Binary64.ofText? s).isSome
  | .join => (JoinSpec.ofText? s).isSome

/-- The wording for a value that is not of a kind. -/
def refusal (kind : ValueKind) (s : String) : String :=
  match kind with
  | .integer => "invalid int value: " ++ quoted s
  | .number => "invalid float value: " ++ quoted s
  | .join => JoinSpec.refusal s
  | .text => "invalid value: " ++ quoted s

end ValueKind

namespace UsageError

/-- The wording of an error about an option. -/
def about (option text : String) : String :=
  "argument " ++ option ++ ": " ++ text

/-- The wording of an error. -/
def message : UsageError → String
  | .ambiguous given candidates =>
    "ambiguous option: " ++ given ++ " could match " ++ String.intercalate ", " candidates
  | .valueMissing option arity =>
    about option (if arity = .several then "expected at least one argument"
      else "expected one argument")
  | .valueUnwanted option value => about option ("ignored explicit argument " ++ quoted value)
  | .valueRefused option kind value => about option (kind.refusal value)
  | .missing names =>
    "the following arguments are required: " ++ String.intercalate ", " names
  | .unrecognized arguments =>
    "unrecognized arguments: " ++ String.intercalate " " arguments

end UsageError

/-- An argument by its role. -/
inductive Token
  | value (s : String)
  | separator
  | option (o : OptionSpec) (attached : Option String)
  | unknown (s : String)

namespace Token

/-- A value or the separator in front of values. -/
def isPlain : Token → Bool
  | .value _ | .separator => true
  | _ => false

/-- The value of a token. -/
def value? : Token → Option String
  | .value s => some s
  | _ => Option.none

/-- The argument that a plain token stands for. -/
def written : Token → String
  | .value s | .unknown s => s
  | _ => "--"

end Token

/-- The help option, which every command has. -/
def helpOption : OptionSpec :=
  { spellings := ["-h", "--help"], arity := .none }

namespace CommandSpec

/-- All spellings with their options, the help first. -/
def spelled (c : CommandSpec) : List (String × OptionSpec) :=
  (helpOption :: c.options).flatMap fun o => o.spellings.map (·, o)

/-- A text that reads as a negative number. -/
def isNegativeNumber (s : List Char) : Bool :=
  match s with
  | '-' :: rest =>
    let body := if ['\n'].isSuffixOf rest then rest.dropLast else rest
    let fraction := (body.dropWhile isDigit).drop 1
    (!body.isEmpty && body.all isDigit) ||
      (['.'].isPrefixOf (body.dropWhile isDigit) && !fraction.isEmpty && fraction.all isDigit)
  | _ => false

/-- The option and the attached value of an argument of the form name, equals sign,
value. -/
def cutAttached (s : String) : String × Option String :=
  let (name, value) := cutFirst '=' s.toList
  (String.ofList name, value.map String.ofList)

/-- The options that an argument may stand for when it is no full spelling, each with
its spelling and the attached value. After a single dash the first letter tells the
option. -/
def candidates (c : CommandSpec) (s : String) : List (String × OptionSpec × Option String) :=
  if startsWith "--" s then
    let (start, value) := cutAttached s
    (c.spelled.filter fun (spelling, _) => startsWith start spelling).map
      fun (spelling, o) => (spelling, o, value)
  else
    (c.spelled.filter fun (spelling, _) => spelling.toList == s.toList.take 2).map
      fun (spelling, o) => (spelling, o, Option.none)

/-- The role of an argument that is no full spelling of an option. -/
def tokenOfCandidates (c : CommandSpec) (s : String) : Except UsageError Token :=
  match c.candidates s with
  | [(_, o, value)] => .ok (.option o value)
  | [] =>
    if isNegativeNumber s.toList || s.toList.contains ' ' then .ok (.value s)
    else .ok (.unknown s)
  | several => .error (.ambiguous s (several.map Prod.fst))

/-- The role of an argument in front of the separator. -/
def token (c : CommandSpec) (s : String) : Except UsageError Token :=
  if !startsWith "-" s then .ok (.value s)
  else
    match c.spelled.lookup s with
    | some o => .ok (.option o Option.none)
    | Option.none =>
      if s = "-" then .ok (.value s)
      else
        match cutAttached s with
        | (name, some value) =>
          match c.spelled.lookup name with
          | some o => .ok (.option o (some value))
          | Option.none => c.tokenOfCandidates s
        | _ => c.tokenOfCandidates s

/-- The roles of all arguments. -/
def tokens (c : CommandSpec) : List String → Except UsageError (List Token)
  | [] => .ok []
  | s :: rest =>
    if s = "--" then .ok (.separator :: rest.map .value)
    else
      match c.token s with
      | .error e => .error e
      | .ok t => (c.tokens rest).map fun ts => t :: ts

end CommandSpec

/-- What an argument list gives: values by position and by option, in the order in
which they were given, and what was not recognized. -/
structure Given where
  positionals : List String := []
  options : List (OptionSpec × List String) := []
  unrecognized : List String := []

namespace Given

/-- The values of the last occurrence of an option. -/
def last? (g : Given) (spelling : String) : Option (List String) :=
  (g.options.reverse.find? fun (o, _) => o.spellings.contains spelling).map Prod.snd

/-- The values of all occurrences of an option. -/
def occurrences (g : Given) (spelling : String) : List (List String) :=
  (g.options.filter fun (o, _) => o.spellings.contains spelling).map Prod.snd

/-- The option occurs. -/
def has (g : Given) (spelling : String) : Bool :=
  (g.last? spelling).isSome

end Given

/-- The values of an option: the attached one, or values that follow it. -/
def valuesOf (o : OptionSpec) (attached : Option String) (rest : List Token) :
    Except Stop (List String) :=
  let following := (rest.map Token.value?).takeWhile Option.isSome |>.filterMap id
  match attached, o.arity with
  | some value, .none => .error (.usage (.valueUnwanted o.name value))
  | some value, _ => .ok [value]
  | Option.none, .none => .ok []
  | Option.none, .one =>
    match following with
    | [] => .error (.usage (.valueMissing o.name .one))
    | value :: _ => .ok [value]
  | Option.none, .several =>
    if following.isEmpty then .error (.usage (.valueMissing o.name .several))
    else .ok following

/-- One option with the tokens behind it: its values, and how many of the tokens they
take. -/
def readOption (o : OptionSpec) (attached : Option String) (rest : List Token) :
    Except Stop (List String × Nat) :=
  match valuesOf o attached rest with
  | .error e => .error e
  | .ok values =>
    if o = helpOption then .error .help
    else
      match values.find? fun value => !o.kind.accepts value with
      | some value => .error (.usage (.valueRefused o.name o.kind value))
      | Option.none => .ok (values, if attached.isSome then 0 else values.length)

/-- What follows a number of values. Separators belong to the value before them. -/
def afterValues : Nat → List Token → List Token
  | _, [] => []
  | 0, .separator :: rest => afterValues 0 rest
  | 0, rest => rest
  | n + 1, .value _ :: rest => afterValues n rest
  | n + 1, _ :: rest => afterValues (n + 1) rest

/-- A run of values: those that positions are left for, and the arguments that are not
recognized. -/
def readPlain (left : Nat) (run : List Token) : List String × List String :=
  let values := run.filterMap Token.value?
  let taken := min left values.length
  (values.take taken, (if taken = 0 then run else afterValues taken run).map Token.written)

/-- Reads tokens from left to right; `fuel` is at least their number. -/
def readTokens (c : CommandSpec) : Nat → Given → List Token → Except Stop Given
  | 0, g, _ => .ok g
  | _, g, [] => .ok g
  | fuel + 1, g, .option o attached :: rest =>
    match readOption o attached rest with
    | .error e => .error e
    | .ok (values, count) =>
      readTokens c fuel { g with options := g.options ++ [(o, values)] } (rest.drop count)
  | fuel + 1, g, .unknown s :: rest =>
    readTokens c fuel { g with unrecognized := g.unrecognized ++ [s] } rest
  | fuel + 1, g, token :: rest =>
    let run := token :: rest.takeWhile Token.isPlain
    let (values, extra) := readPlain (c.positionals.length - g.positionals.length) run
    readTokens c fuel
      { g with
        positionals := g.positionals ++ values
        unrecognized := g.unrecognized ++ extra }
      (rest.dropWhile Token.isPlain)

/-- The names of what is required and was not given. -/
def missingNames (c : CommandSpec) (g : Given) : List String :=
  c.positionals.drop g.positionals.length ++
    ((c.options.filter fun o => o.required && !(g.options.any fun (p, _) => p = o)).map
      OptionSpec.name)

/-- What an argument list gives to a command. -/
def arguments (c : CommandSpec) (args : List String) : Except Stop Given :=
  match c.tokens args with
  | .error e => .error (.usage e)
  | .ok tokens =>
    match readTokens c (tokens.length + 1) {} tokens with
    | .error e => .error e
    | .ok g =>
      let missing := missingNames c g
      if !missing.isEmpty then .error (.usage (.missing missing))
      else if !g.unrecognized.isEmpty then .error (.usage (.unrecognized g.unrecognized))
      else .ok g

end TableQuery.CommandLine
