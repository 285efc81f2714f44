import TableQuery.Binary64.Reader

/-!
# Decimal numbers

Decimals keep their coefficient and exponent apart, so that `2.50` and `2.5`
print differently. `Decimal.text` uses an exponent when the stored exponent is
positive or when the number is below `10 ^ -6`.
-/

namespace TableQuery

open TableQuery.Text

/-- A decimal number, an infinity, or one of the two undefined results. -/
inductive Decimal
  | finite (negative : Bool) (coefficient : Nat) (exponent : Int)
  | infinite (negative : Bool)
  | undefined (negative signaling : Bool) (payload : List Char)
  deriving DecidableEq

namespace Decimal

/-- An exponent with its sign. -/
def exponentText (e : Int) : List Char :=
  'E' :: (if e < 0 then '-' else '+') :: Nat.toDigits 10 e.natAbs

/-- The digits of a number with a point among them, and an exponent when the
plain form would be too long. -/
def finiteText (coefficient : Nat) (exponent : Int) : List Char :=
  let ds := Nat.toDigits 10 coefficient
  let point := exponent + ds.length
  if exponent ≤ 0 ∧ -6 < point then Binary64.positional ds point []
  else
    (match ds with
      | [] => []
      | [d] => [d]
      | d :: rest => d :: '.' :: rest) ++ exponentText (point - 1)

/-- The text of a decimal. -/
def text : Decimal → String
  | .finite neg n e => String.ofList (Binary64.signText neg ++ finiteText n e)
  | .infinite neg => String.ofList (Binary64.signText neg ++ "Infinity".toList)
  | .undefined neg signaling payload =>
    String.ofList (Binary64.signText neg ++
      (if signaling then "sNaN".toList else "NaN".toList) ++ payload)

/-- The nearest double; the signaling undefined result has none. -/
def toBinary64? : Decimal → Option Binary64
  | .finite neg n e => some (Binary64.ofDecimal neg n e)
  | .infinite neg => some (.infinite neg)
  | .undefined _ signaling _ => if signaling then none else some .nan

/-- The named decimals: the infinities and the undefined results. -/
def named? (negative : Bool) (body : List Char) : Option Decimal :=
  let lowered := Binary64.asciiLower body
  if lowered = "inf".toList ∨ lowered = "infinity".toList then some (.infinite negative)
  else if "nan".toList.isPrefixOf lowered ∧ (lowered.drop 3).all isDigit then
    some (.undefined negative false ((lowered.drop 3).dropWhile (· == '0')))
  else if "snan".toList.isPrefixOf lowered ∧ (lowered.drop 4).all isDigit then
    some (.undefined negative true ((lowered.drop 4).dropWhile (· == '0')))
  else none

/-- The decimal that a text denotes. -/
def ofText? (s : String) : Option Decimal :=
  let (neg, body) := Binary64.splitSign ((trimChars s).filter (· != '_'))
  match named? neg body with
  | some d => some d
  | none =>
    (Binary64.decimalParts? body).map fun (whole, fraction, e) =>
      .finite neg (digitsValue (whole ++ fraction)) (e - fraction.length)

end Decimal

end TableQuery
