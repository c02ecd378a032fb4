/-
This file holds the tags of nodes and the rules by which a plain scalar gets one. The first
form that the whole text has decides: a truth value, a number, a merge mark, null, a
timestamp, a default mark; a text of no such form is a string.
-/

import GoApiDoc.Yaml.Calendar

namespace GoApiDoc.Yaml

open Text

/-- The tag of a node. -/
inductive Tag
  | null
  | bool
  | int
  | float
  | str
  | binary
  | timestamp
  | seq
  | map
  | set
  | omap
  | pairs
  | merge
  | default
  | other (name : String)
  deriving DecidableEq, Repr

/-- The tag of a full name. -/
def Tag.ofName (name : String) : Tag :=
  match "tag:yaml.org,2002:".toList.isPrefixOf? name.toList with
  | none => .other name
  | some kind =>
    match String.ofList kind with
    | "null" => .null
    | "bool" => .bool
    | "int" => .int
    | "float" => .float
    | "str" => .str
    | "binary" => .binary
    | "timestamp" => .timestamp
    | "seq" => .seq
    | "map" => .map
    | "set" => .set
    | "omap" => .omap
    | "pairs" => .pairs
    | "merge" => .merge
    | "value" => .default
    | _ => .other name

/-! ### Forms of numbers -/

/-- The text without a sign in front. -/
def unsigned : List Char → List Char
  | '+' :: rest => rest
  | '-' :: rest => rest
  | text => text

/-- A digit or an underscore between digits. -/
def isDigitPart (char : Char) : Bool :=
  isAsciiDigit char || char == '_'

/-- A nonempty text of the class. -/
def isRun (inClass : Char → Bool) (text : List Char) : Bool :=
  !text.isEmpty && text.all inClass

/-- Nothing, or an exponent with a sign. -/
def isExponent : List Char → Bool
  | [] => true
  | mark :: sign :: digits =>
    (mark == 'e' || mark == 'E') && (sign == '+' || sign == '-') && isRun isAsciiDigit digits
  | _ => false

/-- One or more groups of a colon and a number below sixty; what remains behind them. -/
def sexagesimalGroups : List Char → Option (List Char)
  | ':' :: first :: rest =>
    if isAsciiDigit first then
      match rest with
      | second :: rest' =>
        if isAsciiDigit second then
          if first ≤ '5' then some ((sexagesimalGroups rest').getD rest') else none
        else some ((sexagesimalGroups (second :: rest')).getD (second :: rest'))
      | [] => some []
    else none
  | _ => none

/-- The form of a floating point number. -/
def isFloatForm (text : List Char) : Bool :=
  let body := unsigned text
  let afterWhole := body.dropWhile isDigitPart
  let startsWithDigit := match body with
    | digit :: _ => isAsciiDigit digit
    | [] => false
  let pointed := startsWithDigit &&
    (match afterWhole with
    | '.' :: rest => isExponent (rest.dropWhile isDigitPart)
    | _ => false)
  let fraction := match text with
    | '.' :: digit :: rest => isAsciiDigit digit && isExponent (rest.dropWhile isDigitPart)
    | _ => false
  let sexagesimal := startsWithDigit &&
    (match sexagesimalGroups afterWhole with
    | some ('.' :: rest) => rest.all isDigitPart
    | _ => false)
  pointed || fraction || sexagesimal ||
    [".inf", ".Inf", ".INF"].contains (String.ofList body) ||
    [".nan", ".NaN", ".NAN"].contains (String.ofList text)

/-- The form of a whole number: binary, octal, decimal, hexadecimal or sexagesimal. -/
def isIntForm (text : List Char) : Bool :=
  match unsigned text with
  | '0' :: 'b' :: digits => isRun (fun char => char == '0' || char == '1' || char == '_') digits
  | '0' :: 'x' :: digits => isRun (fun char => isHexDigit char || char == '_') digits
  | '0' :: digits => digits.all fun char => isOctalDigit char || char == '_'
  | first :: rest =>
    isAsciiDigit first &&
      (rest.all isDigitPart || sexagesimalGroups (rest.dropWhile isDigitPart) == some [])
  | [] => false

/-! ### Resolution -/

/-- The words for the two truth values. -/
def boolWords : List String :=
  ["yes", "Yes", "YES", "no", "No", "NO", "true", "True", "TRUE", "false", "False", "FALSE",
   "on", "On", "ON", "off", "Off", "OFF"]

/-- The words for null. -/
def nullWords : List String :=
  ["~", "null", "Null", "NULL", ""]

/-- The form of a timestamp that needs no tag: a date has two digits for month and day. -/
def isTimestampForm (text : List Char) : Bool :=
  match timestampOf text with
  | some (.day _, full) => full
  | some (.moment _, _) => true
  | none => false

/-- The text without one line feed at its end, which no form looks at. -/
def withoutFinalBreak (text : List Char) : List Char :=
  if text.getLast? = some '\n' then text.dropLast else text

/-- The tag of a plain scalar by its text. -/
def Tag.ofPlain (text : String) : Tag :=
  let chars := withoutFinalBreak text.toList
  let word := String.ofList chars
  if boolWords.contains word then .bool
  else if isFloatForm chars then .float
  else if isIntForm chars then .int
  else if word == "<<" then .merge
  else if nullWords.contains word && !(text == "\n") then .null
  else if isTimestampForm chars then .timestamp
  else if word == "=" then .default
  else if ["!", "&", "*"].contains word then .other "tag:yaml.org,2002:yaml"
  else .str

end GoApiDoc.Yaml
