/-
This file holds the trees that documents are written as, and their text as JSON: two spaces
for each level, a line for each item, no escapes but the needed ones. A surrogate stands for itself,
so the text of a tree that holds one is broken too.
-/

import GoApiDoc.Table
import GoApiDoc.Decimal.Shortest
import GoApiDoc.Decimal.Whole
import GoApiDoc.Text.Quoted

namespace GoApiDoc

open Decimal Text

/-- A tree of plain data. The members of an object keep their order, and their names have no
surrogates. -/
inductive Json
  | null
  | bool (value : Bool)
  | int (value : Int)
  | float (value : Double)
  | str (value : Text)
  | array (items : List Json)
  | object (members : List (String × Json))
  deriving Repr

namespace Json

/-- How a character stands in a JSON string. -/
def escapedChar (char : Char) : List Char :=
  if char == '"' then ['\\', '"']
  else if char == '\\' then ['\\', '\\']
  else if char == '\n' then ['\\', 'n']
  else if char == '\r' then ['\\', 'r']
  else if char == '\t' then ['\\', 't']
  else if char == '\x0c' then ['\\', 'f']
  else if char == '\x08' then ['\\', 'b']
  else if char.toNat < 0x20 then '\\' :: 'u' :: hexDigits 4 char.toNat
  else [char]

/-- A string as a JSON string. -/
def nameText (name : String) : String :=
  String.ofList ('"' :: name.toList.flatMap escapedChar ++ ['"'])

/-- How a code point stands in a JSON string. -/
def escapedPoint : Point → List Point
  | .char char => (escapedChar char).map .char
  | .half offset => [.half offset]

/-- A text as a JSON string. -/
def stringText : Text → Text
  | .plain text => .plain (nameText text)
  | .broken points _ => .ofPoints (.char '"' :: points.flatMap escapedPoint ++ [.char '"'])

/-- The start of a line at a level. -/
def newLine (level : Nat) : String :=
  String.ofList ('\n' :: List.replicate (2 * level) ' ')

/-- The text of a double; one that is no finite number is written as a word. -/
def floatText : Double → String
  | .nan => "NaN"
  | .infinite negative => if negative then "-Infinity" else "Infinity"
  | value => value.text

mutual

/-- The text of a tree that starts at a level. -/
def textAt (level : Nat) : Json → Text
  | .null => .plain "null"
  | .bool value => .plain (if value then "true" else "false")
  | .int value => .plain (toString value)
  | .float value => .plain (floatText value)
  | .str value => stringText value
  | .array [] => .plain "[]"
  | .array (item :: rest) =>
    .plain ("[" ++ newLine (level + 1)) ++ textAt (level + 1) item ++ itemsText (level + 1) rest ++
      .plain (newLine level ++ "]")
  | .object [] => .plain "\x7b\x7d"
  | .object ((name, value) :: rest) =>
    .plain ("\x7b" ++ newLine (level + 1) ++ nameText name ++ ": ") ++ textAt (level + 1) value ++
      membersText (level + 1) rest ++ .plain (newLine level ++ "\x7d")

/-- The text of further items, each with a comma in front. -/
def itemsText (level : Nat) : List Json → Text
  | [] => .plain ""
  | item :: rest =>
    .plain ("," ++ newLine level) ++ textAt level item ++ itemsText level rest

/-- The text of further members, each with a comma in front. -/
def membersText (level : Nat) : List (String × Json) → Text
  | [] => .plain ""
  | (name, value) :: rest =>
    .plain ("," ++ newLine level ++ nameText name ++ ": ") ++ textAt level value ++
      membersText level rest

end

mutual

/-- Whether every whole number in a tree has a decimal text. Other trees are not written. -/
def allText : Json → Bool
  | .int value => hasText value
  | .array items => allTextItems items
  | .object members => allTextMembers members
  | _ => true

/-- Whether every whole number in items has a decimal text. -/
def allTextItems : List Json → Bool
  | [] => true
  | item :: rest => allText item && allTextItems rest

/-- Whether every whole number in members has a decimal text. -/
def allTextMembers : List (String × Json) → Bool
  | [] => true
  | (_, value) :: rest => allText value && allTextMembers rest

end

/-- The text of a tree, with a line break at its end. -/
def text (tree : Json) : Text :=
  tree.textAt 0 ++ .plain "\n"

end Json

end GoApiDoc
