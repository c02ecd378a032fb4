/-
This file cuts a Go source into lexemes: blanks, line breaks, comments and the spellings of
tokens. Nothing is dropped, so the lexemes put together again are the source. Each lexeme
carries the line it starts on. The line advances at a line break, in a block comment and in a
literal in backquotes; in a quoted literal a backslash may hide a line break, which is not
counted.
-/

import GoApiDoc.Go.Token
import GoApiDoc.Text.Word
import GoApiDoc.Text.Quoted

namespace GoApiDoc.Go

open Text

/-! ### Shapes -/

/-- What a lexeme is. -/
inductive Shape
  | blank
  | newline
  | lineComment
  | blockComment
  | token (kind : TokenKind)
  deriving DecidableEq, Repr

/-- A stretch of source: its shape, its characters, and the line it starts on. -/
structure Lexeme where
  shape : Shape
  text : List Char
  line : Nat
  deriving DecidableEq, Repr

/-- The backquote, which encloses raw literals. -/
def backquote : Char :=
  Char.ofNat 0x60

/-- By how many lines the lexeme moves the line count on. -/
def Lexeme.lineBreaks (lexeme : Lexeme) : Nat :=
  match lexeme.shape with
  | .newline | .blockComment => lexeme.text.count '\n'
  | .token .string => if lexeme.text.head? = some backquote then lexeme.text.count '\n' else 0
  | _ => 0

/-- Why a source cannot be cut into lexemes. -/
inductive LexicalFault
  | openComment
  | openLiteral
  | openRawLiteral
  | strayCharacter (char : Char)
  deriving DecidableEq, Repr

/-- The fault in words. -/
def LexicalFault.message : LexicalFault → String
  | .openComment => "comment not terminated"
  | .openLiteral => "literal not terminated"
  | .openRawLiteral => "raw string literal not terminated"
  | .strayCharacter char => "unexpected character " ++ quoted (String.singleton char)

/-! ### Lengths

Each function below looks at what follows the first character of a lexeme and says how many
more characters belong to it. -/

/-- The number of characters in the leading run of a class. -/
def runLength (inClass : Char → Bool) (text : List Char) : Nat :=
  (text.takeWhile inClass).length

/-- The rest of a quoted literal up to and with the closing quote. A backslash takes the next
character with it, whatever it is. -/
def quotedLength (quote : Char) : List Char → Option Nat
  | [] => none
  | char :: rest =>
    if char = quote then some 1
    else if char = '\n' then none
    else if char = '\\' then
      match rest with
      | [] => none
      | _ :: rest => (quotedLength quote rest).map (· + 2)
    else (quotedLength quote rest).map (· + 1)

/-- The rest of a raw literal up to and with the closing backquote. -/
def rawLength : List Char → Option Nat
  | [] => none
  | char :: rest => if char = backquote then some 1 else (rawLength rest).map (· + 1)

/-- The rest of a block comment up to and with its end mark. -/
def blockLength : List Char → Option Nat
  | '*' :: '/' :: _ => some 2
  | _ :: rest => (blockLength rest).map (· + 1)
  | [] => none

/-- A decimal digit or the separator between digits. -/
def isDecimalPart (char : Char) : Bool :=
  isAsciiDigit char || char == '_'

/-- A hexadecimal digit or the separator between digits. -/
def isHexPart (char : Char) : Bool :=
  isHexDigit char || char == '_'

/-- The length of an exponent: a mark, an optional sign and at least one digit, or nothing. -/
def exponentLength (isMark : Char → Bool) (text : List Char) : Nat :=
  match text with
  | [] => 0
  | mark :: rest =>
    if isMark mark then
      match rest with
      | [] => 0
      | sign :: tail =>
        if sign = '+' ∨ sign = '-' then
          let digits := runLength isDecimalPart tail
          if digits = 0 then 0 else digits + 2
        else
          let digits := runLength isDecimalPart rest
          if digits = 0 then 0 else digits + 1
    else 0

/-- The length of a fraction: a point and any digits, or nothing. -/
def fractionLength (isPart : Char → Bool) : List Char → Nat
  | '.' :: rest => runLength isPart rest + 1
  | _ => 0

/-- The length of the mark of an imaginary number, if it is there. -/
def imaginaryLength : List Char → Nat
  | 'i' :: _ => 1
  | _ => 0

/-- An exponent mark of a decimal number. -/
def isDecimalMark (char : Char) : Bool :=
  char == 'e' || char == 'E'

/-- An exponent mark of a hexadecimal number. -/
def isHexMark (char : Char) : Bool :=
  char == 'p' || char == 'P'

/-- The length of an exponent and an imaginary mark. -/
def suffixLength (isMark : Char → Bool) (text : List Char) : Nat :=
  let exponent := exponentLength isMark text
  exponent + imaginaryLength (text.drop exponent)

/-- The rest of a hexadecimal number after its base mark. -/
def hexLength (text : List Char) : Nat :=
  let whole := runLength isHexPart text
  let fraction := fractionLength isHexPart (text.drop whole)
  whole + fraction + suffixLength isHexMark (text.drop (whole + fraction))

/-- The rest of a decimal number that starts with a digit. -/
def decimalLength (text : List Char) : Nat :=
  let whole := runLength isDecimalPart text
  let fraction := fractionLength isDecimalPart (text.drop whole)
  whole + fraction + suffixLength isDecimalMark (text.drop (whole + fraction))

/-- The rest of a number that starts with `first`; `none` if no number starts here. An octal
or binary base mark counts only with a digit after it. -/
def numberLength (first : Char) (rest : List Char) : Option Nat :=
  if first = '.' then
    match rest with
    | [] => none
    | digit :: _ =>
      if isAsciiDigit digit then
        let digits := runLength isDecimalPart rest
        some (digits + suffixLength isDecimalMark (rest.drop digits))
      else none
  else if !isAsciiDigit first then none
  else if first = '0' then
    match rest with
    | [] => some 0
    | mark :: tail =>
      if mark = 'x' ∨ mark = 'X' then some (hexLength tail + 1)
      else if mark = 'o' ∨ mark = 'O' ∨ mark = 'b' ∨ mark = 'B' then
        let digits := runLength isDecimalPart tail
        if digits = 0 then some (decimalLength rest)
        else some (1 + digits + imaginaryLength (tail.drop digits))
      else some (decimalLength rest)
  else some (decimalLength rest)

/-- The rest of the operator that starts with `first`; `none` if no operator starts here.
The longest operator is taken. -/
def operatorLength (first : Char) (rest : List Char) : Option Nat :=
  let next := rest.head?
  let assigns := next == some '='
  let orAssign := some (if assigns then 1 else 0)
  match first with
  | '.' => some (if rest.take 2 == ['.', '.'] then 2 else 0)
  | ':' => orAssign
  | '<' =>
    if next == some '-' then some 1
    else if next == some '<' then some (if (rest.drop 1).head? == some '=' then 2 else 1)
    else orAssign
  | '>' =>
    if next == some '>' then some (if (rest.drop 1).head? == some '=' then 2 else 1)
    else orAssign
  | '&' =>
    if next == some '&' then some 1
    else if next == some '^' then some (if (rest.drop 1).head? == some '=' then 2 else 1)
    else orAssign
  | '|' => if next == some '|' then some 1 else orAssign
  | '+' => if next == some '+' then some 1 else orAssign
  | '-' => if next == some '-' then some 1 else orAssign
  | '*' | '/' | '%' | '^' | '=' | '!' => orAssign
  | '(' | ')' | '[' | ']' | '{' | '}' | ',' | ';' | '~' => some 0
  | _ => none

/-! ### Cutting -/

/-- A character that separates tokens and nothing else. -/
def isGap (char : Char) : Bool :=
  char == ' ' || char == '\t' || char == '\r' || char == '\x0c' || char == '\uFEFF'

/-- The shape of the token that a word spells. -/
def wordShape (word : List Char) : Shape :=
  .token (if keywords.contains (String.ofList word) then .keyword else .ident)

/-- The word, number or operator that starts with `first`. -/
def nextSymbol (first : Char) (rest : List Char) : Except LexicalFault (Shape × Nat) :=
  if isWordStart first then
    let length := runLength isWord rest
    .ok (wordShape (first :: rest.take length), length)
  else
    match numberLength first rest with
    | some length => .ok (.token .number, length)
    | none =>
      match operatorLength first rest with
      | some length => .ok (.token (if first = ';' then .semicolon else .op), length)
      | none => .error (.strayCharacter first)

/-- The lexeme that starts with `first`: its shape, and how many characters of `rest` belong
to it. -/
def nextLexeme (first : Char) (rest : List Char) : Except LexicalFault (Shape × Nat) :=
  if first = '\n' then .ok (.newline, 0)
  else if isGap first then .ok (.blank, 0)
  else if first = '/' ∧ rest.head? = some '/' then .ok (.lineComment, runLength (· ≠ '\n') rest)
  else if first = '/' ∧ rest.head? = some '*' then
    match blockLength (rest.drop 1) with
    | some length => .ok (.blockComment, length + 1)
    | none => .error .openComment
  else if first = '"' ∨ first = '\'' then
    match quotedLength first rest with
    | some length => .ok (.token (if first = '"' then .string else .rune), length)
    | none => .error .openLiteral
  else if first = backquote then
    match rawLength rest with
    | some length => .ok (.token .string, length)
    | none => .error .openRawLiteral
  else nextSymbol first rest

/-- Cuts the source that starts on `line` into lexemes; a fault comes with its line. -/
def lexemesFrom (line : Nat) (source : List Char) : Except (LexicalFault × Nat) (List Lexeme) :=
  match source with
  | [] => .ok []
  | first :: rest =>
    match nextLexeme first rest with
    | .error fault => .error (fault, line)
    | .ok (shape, extra) =>
      let lexeme : Lexeme := ⟨shape, first :: rest.take extra, line⟩
      match lexemesFrom (line + lexeme.lineBreaks) (rest.drop extra) with
      | .error fault => .error fault
      | .ok lexemes => .ok (lexeme :: lexemes)
termination_by source.length
decreasing_by all_goals (simp only [List.length_drop, List.length_cons]; omega)

/-- Cuts a source into lexemes. -/
def lexemes (source : List Char) : Except (LexicalFault × Nat) (List Lexeme) :=
  lexemesFrom 1 source

end GoApiDoc.Go
