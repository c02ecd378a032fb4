/-
This file writes a tree as YAML in block style: a line for each member or item, two spaces for
each level, the items of a sequence under a key at the column of the key. A text is written
plain where reading it back gives the same text, else in single quotes, else in double quotes
with escapes; long texts are folded behind column eighty. Surrogates are escaped, so what is
written is a string.
-/

import GoApiDoc.Json
import GoApiDoc.Yaml.Tag

namespace GoApiDoc.Yaml

open Text Decimal

/-! ### Which forms a text can have -/

/-- A line break in a text that is to be written. -/
def isTextBreak (char : Char) : Bool :=
  char == '\n' || char == '\x85' || char == '\u2028' || char == '\u2029'

/-- A blank, a line break or nothing at all. -/
def isGapOrNothing : Option Char → Bool
  | none => true
  | some char =>
    char == ' ' || char == '\t' || char == '\r' || char == '\x00' || isTextBreak char

/-- A character that stands for itself in plain and single-quoted texts. -/
def isOrdinary (char : Char) : Bool :=
  let point := char.toNat
  char == '\n' || (0x20 ≤ point && point ≤ 0x7E) ||
    ((point == 0x85 || (0xA0 ≤ point && point ≤ 0xD7FF) || (0xE000 ≤ point && point ≤ 0xFFFD) ||
      (0x10000 ≤ point && point < 0x10FFFF)) && point != 0xFEFF)

/-- Whether the first character of a plain text would be taken for structure. -/
def startsLikeStructure (first : Char) (next : Option Char) : Bool :=
  "#,[]\x7b\x7d&*!|>'\"%@".toList.contains first || first.toNat == 0x60 ||
    ((first == '?' || first == ':' || first == '-') && isGapOrNothing next)

/-- Whether a later character of a plain text would be taken for structure: a colon before a
blank or a number sign behind one. -/
def holdsStructure (previous : Char) : List Char → Bool
  | [] => false
  | char :: rest =>
    (char == ':' && isGapOrNothing rest.head?) ||
      (char == '#' && isGapOrNothing (some previous)) || holdsStructure char rest

/-- Whether a plain text of these characters would be taken for structure. -/
def looksLikeStructure (text : List Char) : Bool :=
  match text with
  | [] => false
  | first :: rest =>
    ['-', '-', '-'].isPrefixOf text || ['.', '.', '.'].isPrefixOf text ||
      startsLikeStructure first rest.head? || holdsStructure first rest

/-- Whether two characters of the given classes stand side by side. -/
def hasPair (first second : Char → Bool) : List Char → Bool
  | one :: two :: rest => (first one && second two) || hasPair first second (two :: rest)
  | _ => false

/-- A space. -/
def isSpace (char : Char) : Bool :=
  char == ' '

/-- Whether the text has a blank or line break at one of its ends. -/
def hasOuterGap (text : List Char) : Bool :=
  let isGap (char : Option Char) : Bool := match char with
    | some char => isSpace char || isTextBreak char
    | none => false
  isGap text.head? || isGap text.getLast?

/-- Whether a text can be written in single quotes. -/
def allowsSingleQuotes (text : List Char) : Bool :=
  text.all isOrdinary && !hasPair isSpace isTextBreak text && !hasPair isTextBreak isSpace text

/-- Whether a text can be written plain. -/
def allowsPlain (text : List Char) : Bool :=
  Tag.ofPlain (String.ofList text) == .str && allowsSingleQuotes text &&
    !text.any isTextBreak && !hasOuterGap text && !looksLikeStructure text

/-! ### Folding -/

/-- The column behind which texts are folded. -/
def width : Nat := 80

/-- A new line, indented. -/
def newLine (indent : Nat) : List Char :=
  '\n' :: List.replicate indent ' '

/-- A plain text from a column on; it is folded only if `split` is set, at single spaces. -/
def plainText (split : Bool) (indent : Nat) (column : Nat) (text : List Char) : List Char :=
  match text with
  | [] => []
  | char :: rest =>
    if char == ' ' then
      let spaces := (rest.takeWhile isSpace).length
      if spaces == 0 && width < column && split then
        newLine indent ++ plainText split indent indent rest
      else
        List.replicate (spaces + 1) ' ' ++
          plainText split indent (column + spaces + 1) (rest.drop spaces)
    else char :: plainText split indent (column + 1) rest
termination_by text.length
decreasing_by all_goals (simp only [List.length_drop, List.length_cons]; omega)

/-- The inside of a single-quoted text from a column on. Each line break is written twice, the
first of a run of line feeds once more; a text is folded at single spaces that are neither
its first nor its last character. -/
def singleQuotedText (split first : Bool) (indent column : Nat) (text : List Char) : List Char :=
  match text with
  | [] => []
  | char :: rest =>
    if char == ' ' then
      let spaces := (rest.takeWhile isSpace).length
      if spaces == 0 && width < column && split && !first && !rest.isEmpty then
        newLine indent ++ singleQuotedText split false indent indent rest
      else
        List.replicate (spaces + 1) ' ' ++
          singleQuotedText split false indent (column + spaces + 1) (rest.drop spaces)
    else if isTextBreak char then
      let more := rest.takeWhile isTextBreak
      (if char == '\n' then ['\n'] else []) ++ char :: more ++ List.replicate indent ' ' ++
        singleQuotedText split false indent indent (rest.drop more.length)
    else if char == '\'' then
      '\'' :: '\'' :: singleQuotedText split false indent (column + 2) rest
    else char :: singleQuotedText split false indent (column + 1) rest
termination_by text.length
decreasing_by all_goals (simp +zetaDelta only [List.length_drop, List.length_cons]; omega)

/-- A character that stands for itself in a double-quoted text. -/
def isUnescaped (char : Char) : Bool :=
  let point := char.toNat
  char != '"' && char != '\\' && char != '\x85' && char != '\u2028' && char != '\u2029' &&
    char != '\uFEFF' &&
    ((0x20 ≤ point && point ≤ 0x7E) || (0xA0 ≤ point && point ≤ 0xD7FF) ||
      (0xE000 ≤ point && point ≤ 0xFFFD))

/-- A number in upper case hexadecimal of a width. -/
def upperHex (digits number : Nat) : List Char :=
  (hexDigits digits number).map Char.toUpper

/-- The escape of a character. -/
def escapeOf (char : Char) : List Char :=
  match char with
  | '\x00' => ['\\', '0']
  | '\x07' => ['\\', 'a']
  | '\x08' => ['\\', 'b']
  | '\t' => ['\\', 't']
  | '\n' => ['\\', 'n']
  | '\x0b' => ['\\', 'v']
  | '\x0c' => ['\\', 'f']
  | '\r' => ['\\', 'r']
  | '\x1b' => ['\\', 'e']
  | '"' => ['\\', '"']
  | '\\' => ['\\', '\\']
  | '\x85' => ['\\', 'N']
  | '\u2028' => ['\\', 'L']
  | '\u2029' => ['\\', 'P']
  | char =>
    if char.toNat < 0x100 then '\\' :: 'x' :: upperHex 2 char.toNat
    else if char.toNat < 0x10000 then '\\' :: 'u' :: upperHex 4 char.toNat
    else '\\' :: 'U' :: upperHex 8 char.toNat

/-- The character as which a code point stands in a double-quoted text, if it stands for itself,
and else its escape. -/
def unescapedOrEscape : Point → Char ⊕ List Char
  | .char char => if isUnescaped char then .inl char else .inr (escapeOf char)
  | .half offset => .inr ('\\' :: 'u' :: upperHex 4 (Point.half offset).number)

/-- The inside of a double-quoted text. `column` is where the present run of unescaped
characters began and `run` its length so far. A text is folded at a space or behind an escape,
by a backslash at the end of the line; a space that then comes first is escaped too. -/
def doubleQuotedText (split first : Bool) (indent column run : Nat) (text : List Point) :
    List Char :=
  match text with
  | [] => []
  | point :: rest =>
    let inside := split && !first && !rest.isEmpty
    match unescapedOrEscape point with
    | .inl char =>
      if inside && (char == ' ' || run == 0) && width < column + run then
        let escaped := char == ' '
        '\\' :: newLine indent ++ (if escaped then ['\\'] else []) ++ char ::
          doubleQuotedText split false indent (indent + if escaped then 1 else 0) 1 rest
      else char :: doubleQuotedText split false indent column (run + 1) rest
    | .inr escape =>
      let reached := column + run + escape.length
      if inside && width < reached - 1 then
        let escaped := rest.head? == some (.char ' ')
        escape ++ '\\' :: newLine indent ++ (if escaped then ['\\'] else []) ++
          doubleQuotedText split false indent (indent + if escaped then 1 else 0) 0 rest
      else escape ++ doubleQuotedText split false indent reached 0 rest

/-! ### Scalars -/

/-- A text in the simplest form it can have. A text that is a key on one line may not be
folded. -/
def textForm (split : Bool) (indent column : Nat) (text : Text) : List Char :=
  let doubleQuoted := '"' :: doubleQuotedText split true indent (column + 1) 0 text.points ++ ['"']
  match text with
  | .broken _ _ => doubleQuoted
  | .plain string =>
    let chars := string.toList
    if allowsPlain chars then plainText split indent column chars
    else if allowsSingleQuotes chars && (split || !chars.any isTextBreak) then
      '\'' :: singleQuotedText split true indent (column + 1) chars ++ ['\'']
    else doubleQuoted

/-- The text of a double: one in scientific notation always has a point. -/
def floatForm : Double → List Char
  | .nan => ".nan".toList
  | .infinite negative => if negative then "-.inf".toList else ".inf".toList
  | value =>
    let digits := value.text.toList
    if digits.contains '.' then digits
    else digits.flatMap fun char => if char == 'e' then ['.', '0', 'e'] else [char]

/-- A tree that is written on the line of its key or mark: a scalar or an empty collection. -/
def inlineForm (indent column : Nat) : Json → Option (List Char)
  | .null => some "null".toList
  | .bool value => some (if value then "true".toList else "false".toList)
  | .int value => some (toString value).toList
  | .float value => some (floatForm value)
  | .str value => some (textForm true indent column value)
  | .array [] => some ['[', ']']
  | .object [] => some ['{', '}']
  | _ => none

/-! ### Trees -/

/-- Whether a name is written in front of a colon on one line: it is not empty, has no line
break and is not too long. -/
def isSimpleKey (name : String) : Bool :=
  !name.isEmpty && !name.toList.any isTextBreak && name.length < 123

mutual

/-- The text of a mapping or sequence whose first line starts at the column of its indent. -/
def blockForm (indent : Nat) : Json → List Char
  | .object members => membersForm indent members
  | .array items => itemsForm indent items
  | other => (inlineForm (indent + 2) indent other).getD []

/-- The members of a mapping, with a new line before each but the first. -/
def membersForm (indent : Nat) : List (String × Json) → List Char
  | [] => []
  | (name, value) :: rest =>
    let entry :=
      if isSimpleKey name then
        let key := textForm false (indent + 2) indent (.plain name)
        key ++ ':' :: afterKey indent (indent + key.length + 1) value
      else
        '?' :: ' ' :: textForm true (indent + 2) (indent + 2) (.plain name) ++ newLine indent ++
          ':' :: afterMark indent value
    if rest.isEmpty then entry else entry ++ newLine indent ++ membersForm indent rest

/-- The items of a sequence, with a new line before each but the first. -/
def itemsForm (indent : Nat) : List Json → List Char
  | [] => []
  | item :: rest =>
    let entry := '-' :: afterMark indent item
    if rest.isEmpty then entry else entry ++ newLine indent ++ itemsForm indent rest

/-- What follows the colon behind a key: a collection starts on a new line, a sequence at the
column of the key. -/
def afterKey (indent column : Nat) (value : Json) : List Char :=
  match inlineForm (indent + 2) (column + 1) value with
  | some text => ' ' :: text
  | none =>
    match value with
    | .object members => newLine (indent + 2) ++ membersForm (indent + 2) members
    | .array items => newLine indent ++ itemsForm indent items
    | _ => []

/-- What follows a mark at the column of the indent: a collection starts on the same line. -/
def afterMark (indent : Nat) (value : Json) : List Char :=
  match inlineForm (indent + 2) (indent + 2) value with
  | some text => ' ' :: text
  | none =>
    match value with
    | .object members => ' ' :: membersForm (indent + 2) members
    | .array items => ' ' :: itemsForm (indent + 2) items
    | _ => []

end

/-- The text of a tree, with a line break at its end. -/
def write (tree : Json) : String :=
  String.ofList (blockForm 0 tree ++ ['\n'])

end GoApiDoc.Yaml
