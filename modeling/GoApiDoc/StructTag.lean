/-
This file reads struct tags: pairs of a key and a quoted value, with blanks between the
pairs. Looking a key up reads pair after pair until the key comes or what follows is no pair.
From the tag and the field comes the name under which the field is serialised.
-/

import GoApiDoc.Go.Declaration
import GoApiDoc.Go.Literal
import GoApiDoc.Text.Blank
import GoApiDoc.Text.Lower

namespace GoApiDoc.Go

open Text

/-- A character of keys. -/
def isTagKeyChar (char : Char) : Bool :=
  !isBlank char && char != ':' && char != '"'

/-- The rest of a quoted value up to and with the closing quote. A backslash takes the next
character with it, which may not be a line break. -/
def tagValueLength : List Char → Option Nat
  | [] => none
  | '"' :: _ => some 1
  | '\\' :: next :: rest => if next = '\n' then none else (tagValueLength rest).map (· + 2)
  | '\\' :: [] => none
  | _ :: rest => (tagValueLength rest).map (· + 1)

/-- The pair at the start of a text: its key, its value with the quotes, and the code points
taken, blanks in front included. -/
def tagPair (text : List Point) : Option (List Point × List Point × Nat) :=
  let blanks := (text.takeWhile fun point => isBlank (shown point)).length
  let key := (text.drop blanks).takeWhile fun point => isTagKeyChar (shown point)
  let start := blanks + key.length
  if key.isEmpty then none
  else
    match text.drop start with
    | .char ':' :: .char '"' :: rest =>
      (tagValueLength (rest.map shown)).map fun length =>
        (key, .char '"' :: rest.take length, start + 2 + length)
    | _ => none

/-- The value of a key in the text of a tag. A value that is no literal counts as absent,
except for an escape that is too large, which is a fault. -/
def lookupFrom (key text : List Point) : Except LiteralFault (Option Text) :=
  match text with
  | [] => .ok none
  | first :: rest =>
    match tagPair (first :: rest) with
    | none => .ok none
    | some (found, literal, used) =>
      if found = key then
        match unquoteList literal with
        | .ok value => .ok (some (.ofPoints value))
        | .error .escapeTooLarge => .error .escapeTooLarge
        | .error _ => .ok none
      else lookupFrom key (rest.drop (used - 1))
termination_by text.length
decreasing_by all_goals (simp only [List.length_drop, List.length_cons]; omega)

/-- The text of a tag without the blanks at its end. -/
def trimTagRight (text : List Point) : List Point :=
  (text.reverse.dropWhile fun point => isBlank (shown point)).reverse

/-- The text of a tag without the blanks at both ends. -/
def trimTag (text : List Point) : List Point :=
  trimTagRight (text.dropWhile fun point => isBlank (shown point))

/-- The value of a key in a struct tag. -/
def tagLookup (tag key : Text) : Except LiteralFault (Option Text) :=
  lookupFrom key.points (trimTag tag.points)

/-- The text before the first comma. -/
def beforeComma (text : Text) : Text :=
  .ofPoints (text.points.takeWhile (· ≠ .char ','))

/-- What the tag of a field says about serialisation; an empty tag says nothing. -/
def Field.options (field : Field) : Except LiteralFault (Option Text) :=
  match field.tag with
  | none => .ok none
  | some tag => if tag.isEmpty then .ok none else tagLookup tag (.plain "json")

/-- The name under which a field is serialised, empty if it is left out: what the tag gives
before a comma, else for a field that is not embedded its own name with a small first
letter. A hyphen alone leaves the field out. -/
def Field.serialName (field : Field) : Except LiteralFault Text := do
  let options ← field.options
  if options = some (.plain "-") then return .plain ""
  let name := beforeComma (options.getD (.plain ""))
  if !name.isEmpty then return name
  else if field.embedded then return .plain ""
  else return .plain (lowerFirst field.name)

end GoApiDoc.Go
