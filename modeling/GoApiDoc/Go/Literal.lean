/-
This file decodes the string and rune literals of Go. A literal in backquotes is taken as it
stands, without its carriage returns; one in double or single quotes is a run of pieces, each
a plain character or an escape. An escape can name any code point, also one that is no character. A
single-quoted literal holds exactly one code point.
-/

import GoApiDoc.Text
import GoApiDoc.Text.Word

namespace GoApiDoc.Go

open Text

/-! ### Faults -/

/-- Why a text is no literal. -/
inductive LiteralFault
  /-- The text is not enclosed in one kind of quote. -/
  | unquoted
  /-- A line break or the enclosing quote stands between the quotes. -/
  | strayCharacter
  /-- A backslash starts no escape. -/
  | badEscape
  /-- The escape's number is beyond the last code point. -/
  | beyondUnicode
  /-- The escape's number does not fit the 31 bits of a code point argument. -/
  | escapeTooLarge
  /-- The literal in single quotes does not hold exactly one code point. -/
  | notOneRune
  deriving DecidableEq, Repr

/-- What is wrong with the literal, in words. -/
def LiteralFault.message (literal : String) : LiteralFault → String
  | .unquoted => literal ++ " is not a quoted string literal"
  | .strayCharacter => "invalid syntax in " ++ literal
  | .badEscape => "invalid escape sequence in " ++ literal
  | .beyondUnicode => "chr() arg not in range(0x110000)"
  | .escapeTooLarge => "escape out of range in " ++ literal
  | .notOneRune => literal ++ " is not a single rune"

/-! ### What literals are written in -/

/-- What a literal can be written in: characters in a source, code points in a struct tag. Only
characters mean anything in a literal, so it is enough to know which one is shown. -/
class Written (α : Type) where
  /-- The character, or the replacement character for what is none. -/
  shown : α → Char
  /-- What stands for itself. -/
  point : α → Point

instance : Written Char where
  shown := id
  point := .char

instance : Written Point where
  shown point := point.char?.getD '\uFFFD'
  point := id

export Written (shown)

@[simp]
theorem shown_char (char : Char) : shown char = char :=
  rfl

@[simp]
theorem shown_point (char : Char) : shown (Point.char char) = char :=
  rfl

/-! ### Escapes -/

/-- The character that a one-letter escape denotes. -/
def simpleEscape : Char → Option Char
  | 'a' => some '\x07'
  | 'b' => some '\x08'
  | 'f' => some '\x0c'
  | 'n' => some '\n'
  | 'r' => some '\r'
  | 't' => some '\t'
  | 'v' => some '\x0b'
  | '\\' => some '\\'
  | '\'' => some '\''
  | '"' => some '"'
  | _ => none

/-- The number that the digits spell. -/
def numberOf (base : Nat) (digits : List Char) : Nat :=
  digits.foldl (fun value digit => value * base + (hexValue digit).getD 0) 0

/-- The code point of a number, if it has one. -/
def pointOf (number : Nat) : Except LiteralFault Point :=
  if 0x80000000 ≤ number then .error .escapeTooLarge
  else
    match Point.ofNat? number with
    | some point => .ok point
    | none => .error .beyondUnicode

/-- The first `count` characters, if there are that many and all are digits of the class. -/
def digitRun (isDigitOf : Char → Bool) (count : Nat) (text : List Char) : Option (List Char) :=
  let digits := text.take count
  if digits.length = count ∧ digits.all isDigitOf then some digits else none

/-- The number of hexadecimal digits that an escape letter asks for. -/
def hexWidth : Char → Option Nat
  | 'x' => some 2
  | 'u' => some 4
  | 'U' => some 8
  | _ => none

/-- Decodes the escape whose text follows a backslash: the code point, and how many
characters after the backslash spell it. -/
def escape (text : List Char) : Except LiteralFault (Point × Nat) :=
  match text with
  | [] => .error .badEscape
  | letter :: rest =>
    match simpleEscape letter with
    | some char => .ok (.char char, 1)
    | none =>
      match hexWidth letter with
      | some width =>
        match digitRun isHexDigit width rest with
        | some digits => (pointOf (numberOf 16 digits)).map (·, width + 1)
        | none => .error .badEscape
      | none =>
        match digitRun isOctalDigit 3 text with
        | some digits => (pointOf (numberOf 8 digits)).map (·, 3)
        | none => .error .badEscape

/-! ### Whole literals -/

section

variable {α : Type} [Written α]

/-- Decodes the pieces between two quotes. -/
def decodePieces (quote : Char) (body : List α) : Except LiteralFault (List Point) :=
  match body with
  | [] => .ok []
  | first :: rest =>
    let char := shown first
    if char = '\n' ∨ char = quote then .error .strayCharacter
    else if char = '\\' then
      match escape (rest.map shown) with
      | .error fault => .error fault
      | .ok (decoded, used) => (decodePieces quote (rest.drop used)).map (decoded :: ·)
    else (decodePieces quote rest).map (Written.point first :: ·)
termination_by body.length
decreasing_by all_goals (simp only [List.length_drop, List.length_cons]; omega)

/-- The text between the first and the last character, with the quote that both are; `none`
when there are not two characters or they differ. -/
def enclosed (literal : List α) : Option (Char × List α) :=
  match literal with
  | first :: second :: rest =>
    if (second :: rest).getLast?.map shown = some (shown first) then
      some (shown first, (second :: rest).dropLast)
    else none
  | _ => none

/-- Decodes a literal given as what it is written in. -/
def unquoteList (literal : List α) : Except LiteralFault (List Point) :=
  match enclosed literal with
  | none => .error .unquoted
  | some (quote, body) =>
    if quote = (Char.ofNat 0x60) then .ok ((body.filter (shown · ≠ '\r')).map Written.point)
    else if quote = '"' then decodePieces quote body
    else if quote = '\'' then
      match decodePieces quote body with
      | .error fault => .error fault
      | .ok value => if value.length = 1 then .ok value else .error .notOneRune
    else .error .unquoted

end

/-- Decodes a string or rune literal. -/
def unquote (literal : String) : Except LiteralFault Text :=
  (unquoteList literal.toList).map Text.ofPoints

end GoApiDoc.Go
