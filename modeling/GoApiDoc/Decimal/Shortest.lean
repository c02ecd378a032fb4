/-
This file writes a double with the fewest digits that read back as the same double. For one
digit, two digits and so on up to seventeen it looks at the two decimals of that length next
to the number; the first length with a decimal that reads back wins, and of two such decimals
the nearer. The layout is positional for magnitudes from 10^-4 up to 10^16 and scientific
outside, with at least two digits in the exponent.
-/

import GoApiDoc.Decimal.Double

namespace GoApiDoc.Decimal.Double

/-! ### The digits -/

/-- The numerator and denominator of `significand * 2 ^ exponent`. -/
def fraction (significand : Nat) (exponent : Int) : Nat × Nat :=
  if 0 ≤ exponent then (significand * twoTo exponent.toNat, 1)
  else (significand, twoTo (-exponent).toNat)

/-- The fraction in units of `10 ^ exponent`. -/
def inDecimalUnits (numerator denominator : Nat) (exponent : Int) : Nat × Nat :=
  if 0 ≤ exponent then (numerator, denominator * tenTo exponent.toNat)
  else (numerator * tenTo (-exponent).toNat, denominator)

/-- The least power of ten above the fraction, searched upward from `start`. -/
def magnitudeFrom (numerator denominator : Nat) (start : Int) : Nat → Int
  | 0 => start
  | steps + 1 =>
    let units := inDecimalUnits numerator denominator start
    if units.1 < units.2 then start else magnitudeFrom numerator denominator (start + 1) steps

/-- The power of ten `k` with `10 ^ (k - 1) ≤ numerator / denominator < 10 ^ k`. The search
starts below it, at a point that the binary magnitude gives. -/
def magnitude (numerator denominator : Nat) : Int :=
  let binary : Int := (numerator.log2 : Int) - denominator.log2
  magnitudeFrom numerator denominator (binary * 30103 / 100000 - 2) 8

/-- A decimal of the given number of digits that reads back as the double: the nearer
neighbour of the number on the grid if it reads back, else the other one. -/
def digitsOfLength (significand : Nat) (exponent : Int) (length : Nat) : Option (Nat × Int) :=
  let (numerator, denominator) := fraction significand exponent
  let unit := magnitude numerator denominator - length
  let units := inDecimalUnits numerator denominator unit
  let below := units.1 / units.2
  let nearest := roundQuotient units.1 units.2
  let other := if nearest = below then below + 1 else below
  let double : Double := .finite false significand exponent
  if ofDecimal false nearest unit = double then some (nearest, unit)
  else if ofDecimal false other unit = double then some (other, unit)
  else none

/-- The first length from `length` on that has a decimal which reads back. -/
def shortestFrom (significand : Nat) (exponent : Int) (length : Nat) : Nat → Nat × Int
  | 0 => (significand, exponent)
  | attempts + 1 =>
    match digitsOfLength significand exponent length with
    | some found => found
    | none => shortestFrom significand exponent (length + 1) attempts

/-- The fewest digits that read back, as a whole number without trailing zeros and the power
of ten it is multiplied by. -/
def shortest (significand : Nat) (exponent : Int) : List Char × Int :=
  let (number, unit) := shortestFrom significand exponent 1 17
  let digits := Nat.toDigits 10 number
  let kept := (digits.reverse.dropWhile (· == '0')).reverse
  (kept, unit + (digits.length - kept.length : Nat))

/-! ### The text -/

/-- A number with at least two digits. -/
def twoDigits (number : Nat) : List Char :=
  let digits := Nat.toDigits 10 number
  if digits.length < 2 then '0' :: digits else digits

/-- The layout of digits whose first one stands `point` places before the decimal point. -/
def layout (digits : List Char) (point : Int) : List Char :=
  if -4 < point && point ≤ 16 then
    if point ≤ 0 then '0' :: '.' :: List.replicate (-point).toNat '0' ++ digits
    else
      let whole := digits.take point.toNat
      let zeros := List.replicate (point.toNat - whole.length) '0'
      let places := digits.drop point.toNat
      whole ++ zeros ++ '.' :: (if places.isEmpty then ['0'] else places)
  else
    let power := point - 1
    let mantissa := match digits with
      | first :: second :: rest => first :: '.' :: second :: rest
      | short => short
    mantissa ++ 'e' :: (if power < 0 then '-' else '+') :: twoDigits power.natAbs

/-- The text of a double. -/
def text : Double → String
  | .nan => "nan"
  | .infinite negative => if negative then "-inf" else "inf"
  | .finite negative significand exponent =>
    let sign := if negative then ['-'] else []
    if significand = 0 then String.ofList (sign ++ ['0', '.', '0'])
    else
      let (digits, unit) := shortest significand exponent
      String.ofList (sign ++ layout digits (unit + digits.length))

end GoApiDoc.Decimal.Double
