/-
This file holds texts. A text is a sequence of code points, and an escape can name any code point,
also a surrogate: one half of what other encodings spell a character by. A half is no character.
So most texts are strings, and the others are broken: they hold a half and have no encoding.
-/

namespace GoApiDoc

/-! ### Code points -/

/-- A code point: a character, or a surrogate by its distance from the first. -/
inductive Point
  | char (value : Char)
  | half (offset : Fin 0x800)
  deriving DecidableEq, Repr

namespace Point

/-- The number of a code point. -/
def number : Point → Nat
  | .char value => value.toNat
  | .half offset => 0xD800 + offset

/-- Whether a code point is a surrogate. -/
def isHalf : Point → Bool
  | .char _ => false
  | .half _ => true

/-- The character that a code point is. -/
def char? : Point → Option Char
  | .char value => some value
  | .half _ => none

/-- The code point of a number, if there is one. -/
def ofNat? (number : Nat) : Option Point :=
  if number.isValidChar then some (.char (Char.ofNat number))
  else if number < 0x110000 then some (.half (Fin.ofNat 0x800 (number - 0xD800)))
  else none

/-- A code point where only characters can stand. A surrogate takes three bytes, each of which
becomes a replacement character. -/
def replaced : Point → List Char
  | .char value => [value]
  | .half _ => ['\uFFFD', '\uFFFD', '\uFFFD']

end Point

/-! ### Texts -/

/-- A text: a string, or code points with a surrogate among them. -/
inductive Text
  | protected plain (value : String)
  | protected broken (points : List Point) (half : points.any Point.isHalf)
  deriving DecidableEq, Repr

namespace Text

instance : Coe String Text := ⟨Text.plain⟩

instance : Inhabited Text := ⟨.plain ""⟩

/-- The code points of a text. -/
protected def points : Text → List Point
  | .plain value => value.toList.map .char
  | .broken points _ => points

/-- The text of code points. -/
protected def ofPoints (points : List Point) : Text :=
  if half : points.any Point.isHalf then .broken points half
  else .plain (String.ofList (points.filterMap Point.char?))

/-- The string that a text is, if it is one. -/
protected def string? : Text → Option String
  | .plain value => some value
  | .broken _ _ => none

/-- Whether a text has no code points. -/
protected def isEmpty : Text → Bool
  | .plain value => value.isEmpty
  | .broken _ _ => false

/-- Two texts, one behind the other. -/
protected def append : Text → Text → Text
  | .plain first, .plain second => .plain (first ++ second)
  | first, second => Text.ofPoints (first.points ++ second.points)

instance : Append Text := ⟨Text.append⟩

/-- A text as a string, its surrogates replaced. -/
protected def lossy : Text → String
  | .plain value => value
  | .broken points _ => String.ofList (points.flatMap Point.replaced)

end Text

end GoApiDoc
