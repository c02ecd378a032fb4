/-
This file holds the class of blank characters and trimming by it. A blank is any white space
of Unicode together with the four ASCII information separators; the zero width space and the
byte order mark are no blanks.
-/

import GoApiDoc.Text.Boundary

namespace GoApiDoc.Text

/-- Boundaries of the blank characters. -/
def blankBoundaries : List Nat :=
  [0x09, 0x0E, 0x1C, 0x21, 0x85, 0x86, 0xA0, 0xA1, 0x1680, 0x1681, 0x2000, 0x200B, 0x2028,
   0x202A, 0x202F, 0x2030, 0x205F, 0x2060, 0x3000, 0x3001]

/-- White space of any script. -/
def isBlank (char : Char) : Bool :=
  within blankBoundaries char.toNat

/-- The text without the blanks at its end. -/
def trimRight (text : List Char) : List Char :=
  (text.reverse.dropWhile isBlank).reverse

/-- The text without the blanks at both ends. -/
def trim (text : List Char) : List Char :=
  trimRight (text.dropWhile isBlank)

end GoApiDoc.Text
