/-!
# Decimal digits

`digitValue?` reads a decimal digit of any script. The zeros of the scripts
stand in `zeros`; the nine digits after each zero follow it in order.
-/

namespace TableQuery.Text

/-- The code points of the digit zero in each script. -/
def zeros : List Nat :=
  [48, 1632, 1776, 1984, 2406, 2534, 2662, 2790, 2918, 3046, 3174, 3302, 3430, 3558, 3664, 3792,
   3872, 4160, 4240, 6112, 6160, 6470, 6608, 6784, 6800, 6992, 7088, 7232, 7248, 42528, 43216,
   43264, 43472, 43504, 43600, 44016, 65296, 66720, 68912, 69734, 69872, 69942, 70096, 70384,
   70736, 70864, 71248, 71360, 71472, 71904, 72016, 72784, 73040, 73120, 92768, 92864, 93008,
   120782, 120792, 120802, 120812, 120822, 123200, 123632, 125264, 130032]

/-- The value of a decimal digit of any script. -/
def digitValue? (c : Char) : Option Nat :=
  let n := c.toNat
  if 48 ≤ n ∧ n ≤ 57 then some (n - 48)
  else if n < 128 then none
  else (zeros.find? fun z => z ≤ n && n ≤ z + 9).map (n - ·)

/-- A decimal digit of any script. -/
def isDigit (c : Char) : Bool :=
  (digitValue? c).isSome

/-- A digit from `0` to `9`. -/
def isAsciiDigit (c : Char) : Bool :=
  48 ≤ c.toNat && c.toNat ≤ 57

/-- A Latin letter without marks. -/
def isAsciiLetter (c : Char) : Bool :=
  (65 ≤ c.toNat && c.toNat ≤ 90) || (97 ≤ c.toNat && c.toNat ≤ 122)

/-- The number that a list of digits denotes, its other characters passed over. -/
def digitsValue (s : List Char) : Nat :=
  s.foldl (fun n c => match digitValue? c with | some d => 10 * n + d | none => n) 0

@[simp] theorem digitsValue_nil : digitsValue [] = 0 := rfl

/-- The decimal digits of a number, padded with zeros on the left to `width`. -/
def padded (width n : Nat) : List Char :=
  let ds := Nat.toDigits 10 n
  List.replicate (width - ds.length) '0' ++ ds

end TableQuery.Text
