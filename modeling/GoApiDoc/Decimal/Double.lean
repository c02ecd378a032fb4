/-
This file holds the floating point numbers of the documents: binary numbers of 53 significant
bits. They are kept as exact dyadic numbers, sign, significand and power of two, so that
every operation is arithmetic on natural numbers: reading a decimal, adding and multiplying
first compute the exact result and then round it once, to the nearest number and a tie to
the even significand.
-/

namespace GoApiDoc.Decimal

/-- A power of two. -/
def twoTo (exponent : Nat) : Nat :=
  Nat.pow 2 exponent

/-- A power of ten. -/
def tenTo (exponent : Nat) : Nat :=
  Nat.pow 10 exponent

/-- A double: no number, an infinity, or `± significand * 2 ^ exponent`. The functions below
give finite numbers in normal form: a significand below `2 ^ 53` that is at least `2 ^ 52`
unless the exponent is the least one, `-1074`. -/
inductive Double
  | nan
  | infinite (negative : Bool)
  | finite (negative : Bool) (significand : Nat) (exponent : Int)
  deriving DecidableEq, Repr

namespace Double

/-! ### Rounding -/

/-- The quotient rounded to the nearest whole number, a tie to the even one. -/
def roundQuotient (numerator denominator : Nat) : Nat :=
  let quotient := numerator / denominator
  let twice := 2 * (numerator % denominator)
  if twice < denominator then quotient
  else if denominator < twice then quotient + 1
  else if quotient % 2 = 0 then quotient
  else quotient + 1

/-- The zero of a sign. -/
def zero (negative : Bool) : Double :=
  .finite negative 0 (-1074)

/-- `numerator / denominator` in units of `2 ^ exponent`, as a fraction. -/
def inUnits (numerator denominator : Nat) (exponent : Int) : Nat × Nat :=
  if 0 ≤ exponent then (numerator, denominator * twoTo exponent.toNat)
  else (numerator * twoTo (-exponent).toNat, denominator)

/-- The double nearest to `± numerator / denominator`. The exponent is chosen so that the
quotient in its units has 53 bits, or is the least one; a quotient that rounds up to
`2 ^ 53` moves to the next exponent, and one beyond the greatest exponent is infinite. -/
def ofRatio (negative : Bool) (numerator denominator : Nat) : Double :=
  if numerator = 0 then zero negative
  else
    let guess : Int := max ((numerator.log2 : Int) - denominator.log2 - 53) (-1074)
    let scaled := inUnits numerator denominator guess
    let exponent := if twoTo 53 ≤ scaled.1 / scaled.2 then guess + 1 else guess
    let units := inUnits numerator denominator exponent
    let rounded := roundQuotient units.1 units.2
    let carried := rounded = twoTo 53
    let significand := if carried then twoTo 52 else rounded
    let exponent := if carried then exponent + 1 else exponent
    if 971 < exponent then .infinite negative else .finite negative significand exponent

/-- The double nearest to `± digits * 10 ^ exponent`. Numbers far outside the range are
decided by their magnitude alone, so that no power is computed for them. -/
def ofDecimal (negative : Bool) (digits : Nat) (exponent : Int) : Double :=
  let magnitude := ((Nat.toDigits 10 digits).length : Int) + exponent
  if digits = 0 then zero negative
  else if 400 < magnitude then .infinite negative
  else if magnitude < -400 then zero negative
  else if 0 ≤ exponent then ofRatio negative (digits * tenTo exponent.toNat) 1
  else ofRatio negative digits (tenTo (-exponent).toNat)

/-! ### Arithmetic -/

/-- The number with the other sign. -/
def neg : Double → Double
  | .nan => .nan
  | .infinite negative => .infinite (!negative)
  | .finite negative significand exponent => .finite (!negative) significand exponent

/-- The double nearest to `value * 2 ^ exponent`. -/
def ofDyadic (value : Int) (exponent : Int) : Double :=
  let scaled := if 0 ≤ exponent then (value.natAbs * twoTo exponent.toNat, 1)
    else (value.natAbs, twoTo (-exponent).toNat)
  ofRatio (value < 0) scaled.1 scaled.2

/-- The significand with its sign. -/
def signed (negative : Bool) (significand : Nat) : Int :=
  if negative then -(significand : Int) else significand

/-- The rounded sum. -/
def add : Double → Double → Double
  | .nan, _ => .nan
  | _, .nan => .nan
  | .infinite first, .infinite second => if first = second then .infinite first else .nan
  | .infinite negative, .finite _ _ _ => .infinite negative
  | .finite _ _ _, .infinite negative => .infinite negative
  | .finite negative₁ significand₁ exponent₁, .finite negative₂ significand₂ exponent₂ =>
    if significand₁ = 0 ∧ significand₂ = 0 then zero (negative₁ && negative₂)
    else
      let exponent := min exponent₁ exponent₂
      ofDyadic
        (signed negative₁ significand₁ * twoTo (exponent₁ - exponent).toNat +
          signed negative₂ significand₂ * twoTo (exponent₂ - exponent).toNat)
        exponent

/-- The rounded product. -/
def mul : Double → Double → Double
  | .nan, _ => .nan
  | _, .nan => .nan
  | .infinite first, .infinite second => .infinite (first != second)
  | .infinite negative, .finite negative₂ significand _ =>
    if significand = 0 then .nan else .infinite (negative != negative₂)
  | .finite negative₁ significand _, .infinite negative =>
    if significand = 0 then .nan else .infinite (negative != negative₁)
  | .finite negative₁ significand₁ exponent₁, .finite negative₂ significand₂ exponent₂ =>
    let negative := negative₁ != negative₂
    let exponent := exponent₁ + exponent₂
    let value := significand₁ * significand₂
    if 0 ≤ exponent then ofRatio negative (value * twoTo exponent.toNat) 1
    else ofRatio negative value (twoTo (-exponent).toNat)

/-- The double nearest to a natural number. -/
def ofNat (number : Nat) : Double :=
  ofRatio false number 1

/-! ### Whole numbers -/

/-- The whole number that the double is, if it is one. -/
def toInt? : Double → Option Int
  | .finite negative significand exponent =>
    if 0 ≤ exponent then some (signed negative significand * twoTo exponent.toNat)
    else if significand % twoTo (-exponent).toNat = 0 then
      some (signed negative (significand / twoTo (-exponent).toNat))
    else none
  | _ => none

/-- Whether the double is a number at all and not infinite. -/
def isFinite : Double → Bool
  | .finite _ _ _ => true
  | _ => false

/-- Equality of numbers: the two zeros are the same number. Two values that are no number
count as the same. -/
def same : Double → Double → Bool
  | .finite negative₁ significand₁ exponent₁, .finite negative₂ significand₂ exponent₂ =>
    significand₁ = significand₂ &&
      (significand₁ = 0 || (negative₁ = negative₂ && exponent₁ = exponent₂))
  | first, second => first = second

end Double

end GoApiDoc.Decimal
