import TableQuery.Binary64.Rounding
import TableQuery.Text.Digit

/-!
# Decimal texts of doubles

`shortest` finds the fewest decimal digits that read back as the same double,
and of those the nearest to it. `literal` lays them out with a point, or with an
exponent outside `-4 ≤ e < 16`. `significant` and `fixed` round to a number of
digits and of decimal places.
-/

namespace TableQuery.Binary64

open TableQuery.Text

/-- The digits `d` of a decimal `0.d * 10 ^ point`. -/
structure Decimals where
  digits : List Char
  point : Int
  deriving DecidableEq

/-- The decimal exponent of the first digit of a positive magnitude. -/
def topExponent (units : Nat) : Int :=
  (decimalLength (units * tenPow 324 / unitsPerOne) : Int) - 325

/-- A positive magnitude as a ratio scaled by a power of ten. -/
def scaled (units : Nat) (scale : Int) : Nat × Nat :=
  if 0 ≤ scale then (units * tenPow scale.toNat, unitsPerOne)
  else (units, unitsPerOne * tenPow (-scale).toNat)

/-- The magnitude that `n * 10 ^ -scale` reads as. -/
def unitsOfScaled (n : Nat) (scale : Int) : Nat :=
  if 0 ≤ scale then roundUnits (n * unitsPerOne) (tenPow scale.toNat)
  else roundUnits (n * tenPow (-scale).toNat * unitsPerOne) 1

/-- Of the two neighbours with `count` digits the one that reads back as the
magnitude, the nearer one when both do. -/
def neighbour? (units count : Nat) : Option (Nat × Int) :=
  let scale := (count : Int) - 1 - topExponent units
  let ratio := scaled units scale
  let low := ratio.1 / ratio.2
  let near := roundDiv ratio.1 ratio.2
  let far := if near = low then low + 1 else low
  if unitsOfScaled near scale = units then some (near, scale)
  else if unitsOfScaled far scale = units then some (far, scale)
  else none

/-- The first hit among the digit counts from `count` on. -/
def shortestFrom (units : Nat) : Nat → Nat → Option (Nat × Int)
  | 0, _ => none
  | fuel + 1, count =>
    match neighbour? units count with
    | some hit => some hit
    | none => shortestFrom units fuel (count + 1)

/-- Drops the zeros at the end of a list of digits. -/
def dropTrailingZeros (ds : List Char) : List Char :=
  (ds.reverse.dropWhile (· == '0')).reverse

/-- The decimal `n * 10 ^ -scale` without the zeros at its end, zero when there is none. -/
def Decimals.ofHit : Option (Nat × Int) → Decimals
  | some (n, scale) =>
    let ds := Nat.toDigits 10 n
    ⟨dropTrailingZeros ds, (ds.length : Int) - scale⟩
  | none => ⟨['0'], 1⟩

/-- The fewest digits that read back as a positive magnitude. -/
def shortest (units : Nat) : Decimals :=
  .ofHit (shortestFrom units 17 1)

/-- A decimal exponent with its sign and at least two digits. -/
def exponentText (e : Int) : List Char :=
  'e' :: (if e < 0 then '-' else '+') :: padded 2 e.natAbs

/-- Positional notation of `0.digits * 10 ^ point`; without a fraction the text
ends in `tail`. -/
def positional (digits : List Char) (point : Int) (tail : List Char) : List Char :=
  if point ≤ 0 then '0' :: '.' :: (List.replicate (-point).toNat '0' ++ digits)
  else
    let n := point.toNat
    if digits.length ≤ n then digits ++ List.replicate (n - digits.length) '0' ++ tail
    else digits.take n ++ '.' :: digits.drop n

/-- One digit before the point, the others after it, and an exponent. -/
def scientific (digits : List Char) (point : Int) : List Char :=
  (match digits with
    | [] => []
    | [d] => [d]
    | d :: ds => d :: '.' :: ds) ++ exponentText (point - 1)

/-- The sign of a text of a negative number. -/
def signText (negative : Bool) : List Char :=
  if negative then ['-'] else []

/-- The shortest text that reads back as the number. -/
def literalChars : Binary64 → List Char
  | .finite neg n _ =>
    signText neg ++
      if n = 0 then ['0', '.', '0']
      else
        let d := shortest n
        if -4 < d.point ∧ d.point ≤ 16 then positional d.digits d.point ['.', '0']
        else scientific d.digits d.point
  | .infinite neg => signText neg ++ ['i', 'n', 'f']
  | .nan => ['n', 'a', 'n']

/-- The shortest text that reads back as the number. -/
def literal (x : Binary64) : String :=
  String.ofList x.literalChars

/-- The decimal text of an integer. -/
def intText (n : Int) : String :=
  String.ofList (signText (n < 0) ++ Nat.toDigits 10 n.natAbs)

/-- The text of a cell: whole numbers below `10 ^ 16` print without a fraction. -/
def text (x : Binary64) : String :=
  match x.toInt? with
  | some n => if n.natAbs < tenPow 16 then intText n else x.literal
  | none => x.literal

/-- A positive magnitude rounded to `count` significant digits. -/
def significant (units count : Nat) : Decimals :=
  let top := topExponent units
  let ratio := scaled units ((count : Int) - 1 - top)
  let n := roundDiv ratio.1 ratio.2
  let ds := Nat.toDigits 10 n
  ⟨ds, top + 1 + ((ds.length : Int) - count)⟩

/-- The number with `count` significant digits and no zeros at the end, with an
exponent outside `-4 ≤ e < count`. -/
def general (count : Nat) : Binary64 → String
  | .finite neg n _ =>
    String.ofList <| signText neg ++
      if n = 0 then ['0']
      else
        let d := significant n count
        let ds := dropTrailingZeros d.digits
        if -4 < d.point ∧ d.point ≤ count then positional ds d.point []
        else scientific ds d.point
  | .infinite neg => String.ofList (signText neg ++ ['i', 'n', 'f'])
  | .nan => "nan"

/-- The number rounded to a number of decimal places, at least one. -/
def fixed (places : Nat) : Binary64 → String
  | .finite neg n _ =>
    let ratio := scaled n places
    let ds := padded (places + 1) (roundDiv ratio.1 ratio.2)
    let whole := ds.length - places
    String.ofList (signText neg ++ ds.take whole ++ '.' :: ds.drop whole)
  | .infinite neg => String.ofList (signText neg ++ ['i', 'n', 'f'])
  | .nan => "nan"

/-- The number with one digit before the point and `places` after it, and an
exponent. -/
def exponential (places : Nat) : Binary64 → String
  | .finite neg n _ =>
    String.ofList <| signText neg ++
      if n = 0 then '0' :: '.' :: (List.replicate places '0' ++ exponentText 0)
      else
        let d := significant n (places + 1)
        let ds := d.digits.take (places + 1)
        scientific ds d.point
  | .infinite neg => String.ofList (signText neg ++ ['i', 'n', 'f'])
  | .nan => "nan"

end TableQuery.Binary64
