/-
This file reads the text of a scalar as its tag says: whole numbers in five notations,
floating point numbers, truth values, bytes in base 64 and timestamps.
-/

import GoApiDoc.Yaml.Value
import GoApiDoc.Yaml.Tag
import GoApiDoc.Yaml.Fault
import GoApiDoc.Text.Blank

namespace GoApiDoc.Yaml

open Text Decimal

/-! ### Whole numbers -/

/-- The letter that may stand behind a zero in front of the digits of a base. -/
def baseLetter : Nat → Option Char
  | 2 => some 'b'
  | 8 => some 'o'
  | 16 => some 'x'
  | _ => none

/-- The value of a digit in a base: a decimal digit or a letter. -/
def digitIn (base : Nat) (char : Char) : Option Nat :=
  match hexValue char with
  | some value => if value < base then some value else none
  | none => none

/-- The number that digits of a base spell; there must be one at least. -/
def digitsIn (base : Nat) (text : List Char) : Option Nat :=
  if text.isEmpty then none
  else text.foldlM (fun value char => (digitIn base char).map (value * base + ·)) 0

/-- The sign in front of a text, and the text without it. -/
def signOf : List Char → Bool × List Char
  | '+' :: rest => (false, rest)
  | '-' :: rest => (true, rest)
  | text => (false, text)

/-- White space that may stand around a number. The four ASCII information separators are
none, though they are blank elsewhere. -/
def isNumberBlank (char : Char) : Bool :=
  isBlank char && !(0x1C ≤ char.toNat && char.toNat ≤ 0x1F)

/-- A decimal digit of any script as the ASCII digit of its value; other characters stay. -/
def plainDigit (char : Char) : Char :=
  match digitValue char with
  | some value => Char.ofNat ('0'.toNat + value)
  | none => char

/-- The text of a number without white space around it, its decimal digits in ASCII. -/
def bareNumber (text : List Char) : List Char :=
  ((text.dropWhile isNumberBlank).reverse.dropWhile isNumberBlank).reverse.map plainDigit

/-- Reads a whole number in a base: white space around it, a sign and the letter of the base
are allowed. A decimal number keeps to the limit of decimal texts. -/
def intIn (base : Nat) (text : List Char) : Except Fault Int :=
  let (negative, body) := signOf (bareNumber text)
  let digits := match body with
    | '0' :: letter :: rest => if some letter.toLower = baseLetter base then rest else body
    | _ => body
  if base = 10 ∧ digitLimit < digits.length then .error .outOfRange
  else
    match digitsIn base digits with
    | some value => .ok (if negative then -(value : Int) else value)
    | none => .error .outOfRange

/-- The text without underscores. -/
def withoutUnderscores (text : String) : List Char :=
  text.toList.filter (· ≠ '_')

/-- Reads a whole number: binary, hexadecimal, octal after a leading zero, sexagesimal with
colons, or decimal. -/
def intOf (text : String) : Except Fault Int := do
  let chars := withoutUnderscores text
  if chars.isEmpty then throw .emptyNumber
  let (negative, body) := signOf chars
  let value ←
    match body with
    | [] => throw .emptyNumber
    | ['0'] => pure 0
    | '0' :: 'b' :: digits => intIn 2 digits
    | '0' :: 'x' :: digits => intIn 16 digits
    | '0' :: _ => intIn 8 body
    | _ =>
      if body.contains ':' then do
        let parts ← (body.splitOn ':').mapM (intIn 10)
        pure (parts.foldl (fun value part => value * 60 + part) 0)
      else intIn 10 body
  return if negative then -value else value

/-! ### Floating point numbers -/

/-- Reads the digits of a decimal number, the point possibly among them, and an exponent. -/
def decimalOf (negative : Bool) (text : List Char) : Option Double :=
  let whole := text.takeWhile isAsciiDigit
  let rest := text.drop whole.length
  let (places, rest) := match rest with
    | '.' :: rest => (rest.takeWhile isAsciiDigit, rest.dropWhile isAsciiDigit)
    | rest => ([], rest)
  if whole.isEmpty && places.isEmpty then none
  else do
    let digits ← digitsIn 10 (whole ++ places)
    let exponent : Int ← match rest with
      | [] => some 0
      | 'e' :: rest =>
        let (negative, body) := signOf rest
        let value ← digitsIn 10 body
        some (if negative then -(value : Int) else value)
      | _ => none
    return Double.ofDecimal negative digits (exponent - places.length)

/-- Reads a decimal number, an infinity or the mark of no number, all in lower case. -/
def doubleOf (text : List Char) : Except Fault Double :=
  let (negative, body) := signOf (bareNumber text)
  let word := String.ofList body
  if word == "inf" || word == "infinity" then .ok (.infinite negative)
  else if word == "nan" then .ok .nan
  else
    match decimalOf negative body with
    | some value => .ok value
    | none => .error .outOfRange

/-- The most sexagesimal parts of a floating point number: the place value of one more is
beyond every double. -/
def partLimit : Nat := 174

/-- The sum of sexagesimal parts, the last one in units, each product and each sum rounded. -/
def sexagesimal (parts : List Double) : Except Fault Double :=
  if partLimit < parts.length then .error .tooManyParts
  else
    .ok (parts.reverse.foldl
      (fun (sum, base) part => (sum.add (part.mul (Double.ofNat base)), base * 60))
      (Double.zero false, 1)).1

/-- Reads a floating point number; there is none for the word that says so. -/
def floatOf (text : String) : Except Fault (Option Double) := do
  let chars := (withoutUnderscores text).map Char.toLower
  if chars.isEmpty then throw .emptyNumber
  let (negative, body) := signOf chars
  let signed (value : Double) : Double := if negative then value.neg else value
  let word := String.ofList body
  if word == ".inf" then return some (.infinite negative)
  else if word == ".nan" then return none
  else if body.contains ':' then
    let parts ← (body.splitOn ':').mapM doubleOf
    return some (signed (← sexagesimal parts))
  else return some (signed (← doubleOf body))

/-- The value of a node of a floating point number. -/
def floatValue (node : Nat) (text : String) : Except Fault Value := do
  match ← floatOf text with
  | none => return .nan none
  | some .nan => return .nan (some node)
  | some value => return .float value

/-! ### Truth values -/

/-- Reads a truth value, in any case of letters. -/
def boolOf (text : String) : Except Fault Bool :=
  let word := String.ofList (text.toList.map Char.toLower)
  if ["yes", "true", "on"].contains word then .ok true
  else if ["no", "false", "off"].contains word then .ok false
  else .error .unknownWord

/-! ### Bytes -/

/-- The value of a digit of base 64. -/
def sextet (char : Char) : Option Nat :=
  if 'A' ≤ char && char ≤ 'Z' then some (char.toNat - 'A'.toNat)
  else if 'a' ≤ char && char ≤ 'z' then some (char.toNat - 'a'.toNat + 26)
  else if isAsciiDigit char then some (char.toNat - '0'.toNat + 52)
  else if char == '+' then some 62
  else if char == '/' then some 63
  else none

/-- Reads base 64. `filled` counts the digits of the present group of four, `left` holds the
bits that wait for the next digit, `pads` the padding marks in a row. Other characters are
passed over; full padding ends the reading, and a group may not stay open. -/
def bytesFrom (filled left pads : Nat) : List Char → Except Fault (List UInt8)
  | [] => if filled = 0 then .ok [] else .error .malformed
  | char :: rest =>
    if char == '=' then
      if 2 ≤ filled then
        if 4 ≤ filled + pads + 1 then .ok [] else bytesFrom filled left (pads + 1) rest
      else bytesFrom filled left pads rest
    else
      match sextet char with
      | none => bytesFrom filled left pads rest
      | some value =>
        match filled with
        | 0 => bytesFrom 1 value 0 rest
        | 1 => (bytesFrom 2 (value % 16) 0 rest).map (UInt8.ofNat (left * 4 + value / 16) :: ·)
        | 2 => (bytesFrom 3 (value % 4) 0 rest).map (UInt8.ofNat (left * 16 + value / 4) :: ·)
        | _ => (bytesFrom 0 0 0 rest).map (UInt8.ofNat (left * 64 + value) :: ·)

/-- Reads bytes written in base 64; only ASCII characters may be written. -/
def bytesOf (text : String) : Except Fault (List UInt8) :=
  if text.toList.all (·.toNat < 0x80) then bytesFrom 0 0 0 text.toList else .error .malformed

/-! ### Scalars -/

/-- The timestamp that a text spells, which must exist. -/
def timestampValue (text : String) : Except Fault Value :=
  match timestampOf (withoutFinalBreak text.toList) with
  | none => .error .notTimestamp
  | some (timestamp, _) =>
    if !timestamp.exists then .error .outOfRange
    else
      match timestamp with
      | .day date => .ok (.date date)
      | .moment time => .ok (.dateTime time)

/-- The value of a node by its tag and its text; a tag of collections or an unknown one fits
no text. Only a string can hold a surrogate, and what replaces it fits no other value either. -/
def scalarValue (node : Nat) (tag : Tag) (text : Text) : Except Fault Value :=
  match tag with
  | .null => .ok .null
  | .bool => (boolOf text.lossy).map .bool
  | .int => (intOf text.lossy).map .int
  | .float => floatValue node text.lossy
  | .str => .ok (.str text)
  | .binary => (bytesOf text.lossy).map .bytes
  | .timestamp => timestampValue text.lossy
  | _ => .error .malformed

end GoApiDoc.Yaml
