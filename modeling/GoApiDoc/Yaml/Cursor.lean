/-
This file holds the place in a YAML text: what is left of it, and the index, line and column
reached. The end of the text reads as the null character, which no text may contain, so
looking ahead needs no case for the end.
-/

namespace GoApiDoc.Yaml

/-! ### Characters -/

/-- The character that stands for the end of the text. -/
def endMark : Char := '\x00'

/-- A character that a YAML text may contain. -/
def isAllowed (char : Char) : Bool :=
  let point := char.toNat
  point == 0x09 || point == 0x0A || point == 0x0D || (0x20 ≤ point && point ≤ 0x7E) ||
    point == 0x85 || (0xA0 ≤ point && point ≤ 0xD7FF) || (0xE000 ≤ point && point ≤ 0xFFFD) ||
    0x10000 ≤ point

/-- A character that ends a line. -/
def isBreak (char : Char) : Bool :=
  char == '\n' || char == '\r' || char == '\x85' || char == '\u2028' || char == '\u2029'

/-- The end of a line or of the text. -/
def isBreakOrEnd (char : Char) : Bool :=
  isBreak char || char == endMark

/-- A space, or the end of a line or of the text. -/
def isSpaceOrEnd (char : Char) : Bool :=
  char == ' ' || isBreakOrEnd char

/-- A space or tab, or the end of a line or of the text. -/
def isBlankOrEnd (char : Char) : Bool :=
  char == '\t' || isSpaceOrEnd char

/-- The character at a distance, or the end mark. -/
def peekAt (distance : Nat) (text : List Char) : Char :=
  (text.drop distance).headD endMark

/-- The next character, or the end mark. -/
def peek (text : List Char) : Char :=
  text.headD endMark

/-- Whether a document mark, three hyphens or three points and then a blank, comes next. -/
def atDocumentMark (text : List Char) : Bool :=
  (text.take 3 == ['-', '-', '-'] || text.take 3 == ['.', '.', '.']) &&
    isBlankOrEnd (peekAt 3 text)

/-- The line break that comes next as it counts in a scalar, and its length. A carriage
return, a line feed, both together and the next line mark count as a line feed. -/
def lineBreak (text : List Char) : List Char × Nat :=
  match text with
  | '\r' :: '\n' :: _ => (['\n'], 2)
  | char :: _ =>
    if char == '\r' || char == '\n' || char == '\x85' then (['\n'], 1)
    else if char == '\u2028' || char == '\u2029' then ([char], 1)
    else ([], 0)
  | [] => ([], 0)

/-! ### Places -/

/-- A place in a text. -/
structure Cursor where
  rest : List Char
  index : Nat
  line : Nat
  column : Nat
  deriving Repr

namespace Cursor

/-- The start of a text. -/
def start (text : List Char) : Cursor :=
  ⟨text, 0, 0, 0⟩

/-- The place behind the next character. A byte order mark has no width. -/
def next (cursor : Cursor) : Cursor :=
  match cursor.rest with
  | [] => cursor
  | char :: rest =>
    if char == '\n' || char == '\x85' || char == '\u2028' || char == '\u2029' ||
        (char == '\r' && peek rest != '\n') then
      ⟨rest, cursor.index + 1, cursor.line + 1, 0⟩
    else if char == '\uFEFF' then ⟨rest, cursor.index + 1, cursor.line, cursor.column⟩
    else ⟨rest, cursor.index + 1, cursor.line, cursor.column + 1⟩

/-- The place a number of characters ahead. -/
def forward (cursor : Cursor) : Nat → Cursor
  | 0 => cursor
  | count + 1 => cursor.next.forward count

end Cursor

end GoApiDoc.Yaml
