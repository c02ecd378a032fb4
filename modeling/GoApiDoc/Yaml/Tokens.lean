/-
This file cuts a YAML text into tokens. Indentation is kept as a stack of columns; a token
that may turn out to be a key is remembered with its number until its colon comes, its line
ends, or it is too far behind, and the key token is then put in front of it.

Tokens are handed on one at a time, and one that may still become a key is held back until
that is settled. So a fault in the text stops only the tokens that are not settled before it:
the result lists the tokens handed on and, if the text did not end well, the fault behind
them.
-/

import GoApiDoc.Yaml.Token
import GoApiDoc.Yaml.Scalar
import GoApiDoc.Text.Utf8
import GoApiDoc.Decimal.Whole

namespace GoApiDoc.Yaml

open Text

/-! ### Names, tags and directives -/

/-- A character of anchor names and tag handles. -/
def isNameChar (char : Char) : Bool :=
  isAsciiDigit char || isAsciiLetter char || char == '-' || char == '_'

/-- A character that may follow an anchor name. -/
def endsAnchor (char : Char) : Bool :=
  isBlankOrEnd char || char == '?' || char == ':' || char == ',' || char == ']' || char == '}' ||
    char == '%' || char == '@' || char.toNat == 0x60

/-- The name behind an anchor or alias mark, and the characters taken. -/
def anchorName (text : List Char) : Except Fault (String × Nat) :=
  let length := runOf isNameChar text
  if length == 0 || !endsAnchor (peekAt length text) then .error .malformed
  else .ok (String.ofList (text.take length), length)

/-- The bytes of a run of percent escapes, and the characters taken. -/
def uriBytes : List Char → Except Fault (List UInt8 × Nat)
  | '%' :: first :: second :: rest =>
    match hexValue first, hexValue second with
    | some high, some low => do
      let (bytes, used) ← uriBytes rest
      return (UInt8.ofNat (high * 16 + low) :: bytes, used + 3)
    | _, _ => .error .malformed
  | '%' :: _ => .error .malformed
  | _ => .ok ([], 0)

/-- A character of tags other than the percent sign. -/
def isUriChar (char : Char) : Bool :=
  isAsciiDigit char || isAsciiLetter char || "-;/?:@&=+$,_.!~*'()[]".toList.contains char

/-- A run of tag characters with their escapes decoded, and the characters taken. -/
def tagText (text : List Char) : Except Fault (List Char × Nat) :=
  match text with
  | [] => .ok ([], 0)
  | char :: rest =>
    if char == '%' then do
      let (bytes, length) ← uriBytes (char :: rest)
      match Utf8.decode bytes with
      | .error _ => throw .malformed
      | .ok piece =>
        let (value, used) ← tagText (rest.drop (length - 1))
        return (piece ++ value, length + used)
    else if isUriChar char then do
      let (value, used) ← tagText rest
      return (char :: value, used + 1)
    else return ([], 0)
termination_by text.length
decreasing_by all_goals (simp only [List.length_drop, List.length_cons]; omega)

/-- A tag text that takes at least one character. -/
def tagUri (text : List Char) : Except Fault (String × Nat) := do
  let (value, used) ← tagText text
  if used == 0 then throw .malformed else return (String.ofList value, used)

/-- The handle in front of a tag: an exclamation mark alone before a space, or a name between
two of them; the characters taken. -/
def tagHandle (text : List Char) : Except Fault (String × Nat) :=
  if peek text != '!' then .error .malformed
  else if peekAt 1 text == ' ' then .ok ("!", 1)
  else
    let length := runOf isNameChar (text.drop 1)
    if peekAt (length + 1) text != '!' then .error .malformed
    else .ok (String.ofList (text.take (length + 2)), length + 2)

/-- A tag: its token and the characters taken. -/
def tagToken (text : List Char) : Except Fault (Token × Nat) := do
  let second := peekAt 1 text
  let (token, used) ←
    if second == '<' then do
      let (suffix, used) ← tagUri (text.drop 2)
      if peekAt (used + 2) text != '>' then throw .malformed
      pure (Token.tag none suffix, used + 3)
    else if isBlankOrEnd second then pure (Token.tag none "!", 1)
    else do
      let word := (text.drop 1).takeWhile fun char => !isSpaceOrEnd char
      let (handle, handleUsed) ← if word.contains '!' then tagHandle text else pure ("!", 1)
      let (suffix, used) ← tagUri (text.drop handleUsed)
      pure (Token.tag (some handle) suffix, handleUsed + used)
  if isSpaceOrEnd (peekAt used text) then return (token, used) else throw .malformed

/-- The number that decimal digits spell, and the characters taken. The digits keep to the
limit of decimal texts. -/
def versionNumber (text : List Char) : Except Fault (Nat × Nat) :=
  let length := runOf isAsciiDigit text
  if length == 0 then .error .malformed
  else if Decimal.digitLimit < length then .error .outOfRange
  else
    .ok ((text.take length).foldl (fun value digit => value * 10 + (hexValue digit).getD 0) 0,
      length)

/-- A directive line from behind its percent sign on: the line and the characters taken. -/
def directiveLine (text : List Char) : Except Fault (DirectiveLine × Nat) := do
  let nameLength := runOf isNameChar text
  if nameLength == 0 || !isSpaceOrEnd (peekAt nameLength text) then throw .malformed
  let name := text.take nameLength
  let body := text.drop nameLength
  let (line, used) ←
    if name == ['Y', 'A', 'M', 'L'] then do
      let blanks := runOf (· == ' ') body
      let (major, majorUsed) ← versionNumber (body.drop blanks)
      if peekAt (blanks + majorUsed) body != '.' then throw .malformed
      let (minor, minorUsed) ← versionNumber (body.drop (blanks + majorUsed + 1))
      let used := blanks + majorUsed + 1 + minorUsed
      if !isSpaceOrEnd (peekAt used body) then throw .malformed
      pure (DirectiveLine.version major minor, used)
    else if name == ['T', 'A', 'G'] then do
      let blanks := runOf (· == ' ') body
      let (handle, handleUsed) ← tagHandle (body.drop blanks)
      let after := body.drop (blanks + handleUsed)
      if peek after != ' ' then throw .malformed
      let gap := runOf (· == ' ') after
      let (replacement, replacementUsed) ← tagUri (after.drop gap)
      let used := blanks + handleUsed + gap + replacementUsed
      if !isSpaceOrEnd (peekAt used body) then throw .malformed
      pure (DirectiveLine.tag handle replacement, used)
    else pure (DirectiveLine.other, runOf (fun char => !isBreakOrEnd char) body)
  let ignored ← ignoredLine (body.drop used)
  return (line, nameLength + used + ignored)

/-! ### The state of cutting -/

/-- A token that may be a key: its number, whether it must be one, and its place. -/
structure PossibleKey where
  number : Nat
  required : Bool
  index : Nat
  line : Nat
  column : Nat
  deriving Repr

/-- The state of cutting: the place reached, the number of open flow collections, the columns
of the open blocks (the innermost first, `-1` outside all), whether a key may start here, the
possible key of each open flow level, and the tokens so far, the last one first. -/
structure Cutting where
  cursor : Cursor
  flowLevel : Nat := 0
  indent : Int := -1
  indents : List Int := []
  allowKey : Bool := true
  possible : List (Nat × PossibleKey) := []
  recent : List Token := [.streamStart]
  count : Nat := 1
  deriving Repr

namespace Cutting

/-- The state with one more token. -/
def push (state : Cutting) (token : Token) : Cutting :=
  { state with recent := token :: state.recent, count := state.count + 1 }

/-- The state with a token put in so that it has the given number. -/
def insert (state : Cutting) (number : Nat) (token : Token) : Cutting :=
  { state with
    recent := state.recent.insertIdx (state.count - number) token
    count := state.count + 1 }

/-- The state a number of characters further on. -/
def forward (state : Cutting) (used : Nat) : Cutting :=
  { state with cursor := state.cursor.forward used }

/-- A possible key that can no longer be one: its line has ended or it is too far behind. -/
def isStale (state : Cutting) (key : PossibleKey) : Bool :=
  key.line != state.cursor.line || 1024 < state.cursor.index - key.index

/-- Drops the possible keys that can no longer be one; none of them may be required. -/
def dropStale (state : Cutting) : Except Fault Cutting :=
  if state.possible.any fun entry => state.isStale entry.2 && entry.2.required then
    .error .malformed
  else .ok { state with possible := state.possible.filter fun entry => !state.isStale entry.2 }

/-- Drops the possible key of the present flow level; it may not be required. -/
def dropKey (state : Cutting) : Except Fault Cutting :=
  match state.possible.lookup state.flowLevel with
  | none => .ok state
  | some key =>
    if key.required then .error .malformed
    else
      .ok { state with possible := state.possible.filter fun entry => entry.1 != state.flowLevel }

/-- Remembers the next token as a possible key, where keys are allowed. In a block a token at
the indentation of the block must be one. -/
def saveKey (state : Cutting) : Except Fault Cutting :=
  if state.allowKey then do
    let key : PossibleKey := {
      number := state.count
      required := state.flowLevel == 0 && state.indent == state.cursor.column
      index := state.cursor.index
      line := state.cursor.line
      column := state.cursor.column }
    let state ← state.dropKey
    return { state with possible := (state.flowLevel, key) :: state.possible }
  else .ok state

/-- Closes the blocks that are indented deeper than a column, the innermost first. -/
def closeBlocks (column : Int) (indent : Int) : List Int → Cutting → Cutting
  | [], state => { state with indent, indents := [] }
  | outer :: rest, state =>
    if column < indent then closeBlocks column outer rest (state.push .blockEnd)
    else { state with indent, indents := outer :: rest }

/-- Closes the blocks deeper than a column; inside flow collections indentation is free. -/
def unwind (state : Cutting) (column : Int) : Cutting :=
  if state.flowLevel != 0 then state
  else closeBlocks column state.indent state.indents state

/-- Opens a block at a column deeper than the present block; tells whether it did. -/
def openBlock (state : Cutting) (column : Nat) : Cutting × Bool :=
  if state.indent < column then
    ({ state with indent := column, indents := state.indent :: state.indents }, true)
  else (state, false)

/-! ### Blanks and comments -/

/-- The characters taken by spaces, comments and line breaks in front of the next token, and
whether a line break is among them. -/
def gapLength (text : List Char) : Nat × Bool :=
  match text with
  | [] => (0, false)
  | char :: rest =>
    if char == ' ' then
      let (used, broken) := gapLength rest
      (used + 1, broken)
    else if char == '#' then
      let length := runOf (fun char => !isBreakOrEnd char) rest
      let (used, broken) := gapLength (rest.drop length)
      (length + 1 + used, broken)
    else if isBreak char then
      let length := (lineBreak (char :: rest)).2
      let (used, _) := gapLength (rest.drop (length - 1))
      (length + used, true)
    else (0, false)
termination_by text.length
decreasing_by all_goals (simp +zetaDelta only [List.length_drop, List.length_cons]; omega)

/-- Moves to the next token. Behind a line break outside flow collections a key may start. A
byte order mark at the very start is passed over. -/
def toNextToken (state : Cutting) : Cutting :=
  let state :=
    if state.cursor.index == 0 && peek state.cursor.rest == '\uFEFF' then state.forward 1 else state
  let (used, broken) := gapLength state.cursor.rest
  let state := state.forward used
  if broken && state.flowLevel == 0 then { state with allowKey := true } else state

/-! ### Fetching tokens -/

/-- The end of the text closes all blocks. -/
def fetchEnd (state : Cutting) : Except Fault Cutting := do
  let state ← (state.unwind (-1)).dropKey
  return { state with allowKey := false, possible := [] }.push .streamEnd

/-- A directive line. -/
def fetchDirective (state : Cutting) : Except Fault Cutting := do
  let state ← (state.unwind (-1)).dropKey
  let (line, used) ← directiveLine (state.cursor.rest.drop 1)
  return ({ state with allowKey := false }.forward (used + 1)).push (.directive line)

/-- A document mark. -/
def fetchDocumentMark (token : Token) (state : Cutting) : Except Fault Cutting := do
  let state ← (state.unwind (-1)).dropKey
  return ({ state with allowKey := false }.forward 3).push token

/-- The start of a flow collection, which may itself be a key. -/
def fetchFlowStart (token : Token) (state : Cutting) : Except Fault Cutting := do
  let state ← state.saveKey
  return ({ state with flowLevel := state.flowLevel + 1, allowKey := true }.forward 1).push token

/-- The end of a flow collection. -/
def fetchFlowEnd (token : Token) (state : Cutting) : Except Fault Cutting := do
  let state ← state.dropKey
  return ({ state with flowLevel := state.flowLevel - 1, allowKey := false }.forward 1).push token

/-- The comma of a flow collection. -/
def fetchFlowEntry (state : Cutting) : Except Fault Cutting := do
  let state ← { state with allowKey := true }.dropKey
  return (state.forward 1).push .flowEntry

/-- Opens a block for an entry or key at the present column, where one may start. -/
def openBlockHere (token : Token) (state : Cutting) : Except Fault Cutting :=
  if state.flowLevel != 0 then .ok state
  else if !state.allowKey then .error .malformed
  else
    let (state, opened) := state.openBlock state.cursor.column
    .ok (if opened then state.push token else state)

/-- The hyphen of a block sequence. -/
def fetchBlockEntry (state : Cutting) : Except Fault Cutting := do
  let state ← openBlockHere .blockSequenceStart state
  let state ← { state with allowKey := true }.dropKey
  return (state.forward 1).push .blockEntry

/-- The question mark of an explicit key. -/
def fetchKey (state : Cutting) : Except Fault Cutting := do
  let state ← openBlockHere .blockMappingStart state
  let state ← { state with allowKey := state.flowLevel == 0 }.dropKey
  return (state.forward 1).push .key

/-- The colon in front of a value: the possible key of this level becomes a key, with the
start of its mapping in front where it opens one. -/
def fetchValue (state : Cutting) : Except Fault Cutting := do
  let state ←
    match state.possible.lookup state.flowLevel with
    | some key =>
      let state := { state with
        possible := state.possible.filter fun entry => entry.1 != state.flowLevel
        allowKey := false }
      let state := state.insert key.number .key
      if state.flowLevel == 0 then
        let (state, opened) := state.openBlock key.column
        pure (if opened then state.insert key.number .blockMappingStart else state)
      else pure state
    | none => do
      let state ← openBlockHere .blockMappingStart state
      { state with allowKey := state.flowLevel == 0 }.dropKey
  return (state.forward 1).push .value

/-- An alias or anchor. -/
def fetchAnchor (token : String → Token) (state : Cutting) : Except Fault Cutting := do
  let state ← state.saveKey
  let (name, used) ← anchorName (state.cursor.rest.drop 1)
  return ({ state with allowKey := false }.forward (used + 1)).push (token name)

/-- A tag. -/
def fetchTag (state : Cutting) : Except Fault Cutting := do
  let state ← state.saveKey
  let (token, used) ← tagToken state.cursor.rest
  return ({ state with allowKey := false }.forward used).push token

/-- A block scalar. -/
def fetchBlockScalar (folded : Bool) (state : Cutting) : Except Fault Cutting := do
  let state ← { state with allowKey := true }.dropKey
  let (text, used) ← blockScalar folded state.indent (state.cursor.rest.drop 1)
  return (state.forward (used + 1)).push (.scalar (String.ofList text) false)

/-- A quoted scalar. -/
def fetchQuoted (double : Bool) (state : Cutting) : Except Fault Cutting := do
  let state ← state.saveKey
  let (text, used) ← quotedScalar double (state.cursor.rest.drop 1)
  return ({ state with allowKey := false }.forward (used + 1)).push
    (.scalar (.ofPoints text) false)

/-- A plain scalar. One that ends behind a line break lets a key start. -/
def fetchPlain (state : Cutting) : Except Fault Cutting := do
  let state ← state.saveKey
  let (text, used, broken) :=
    plainScalar (state.flowLevel != 0) (state.indent + 1) state.cursor.rest
  return ({ state with allowKey := broken }.forward used).push (.scalar (String.ofList text) true)

/-- A character that no plain scalar starts with. -/
def isIndicator (char : Char) : Bool :=
  isBlankOrEnd char || char.toNat == 0x60 || "-?:,[]\x7b\x7d#&*!|>'\"%@".toList.contains char

/-- Whether a plain scalar starts here. -/
def startsPlain (inFlow : Bool) (text : List Char) : Bool :=
  let char := peek text
  !isIndicator char ||
    (!isBlankOrEnd (peekAt 1 text) && (char == '-' || (!inFlow && (char == '?' || char == ':'))))

/-- Fetches the next token, and what it brings with it. -/
def fetch (state : Cutting) : Except Fault Cutting := do
  let state ← state.toNextToken.dropStale
  let state := state.unwind state.cursor.column
  let text := state.cursor.rest
  let inFlow := state.flowLevel != 0
  let atStart := state.cursor.column == 0
  let beforeBlank := isBlankOrEnd (peekAt 1 text)
  match text with
  | [] => state.fetchEnd
  | char :: _ =>
    if char == '%' && atStart then state.fetchDirective
    else if char == '-' && atStart && atDocumentMark text then
      state.fetchDocumentMark .documentStart
    else if char == '.' && atStart && atDocumentMark text then
      state.fetchDocumentMark .documentEnd
    else if char == '[' then state.fetchFlowStart .flowSequenceStart
    else if char == '{' then state.fetchFlowStart .flowMappingStart
    else if char == ']' then state.fetchFlowEnd .flowSequenceEnd
    else if char == '}' then state.fetchFlowEnd .flowMappingEnd
    else if char == ',' then state.fetchFlowEntry
    else if char == '-' && beforeBlank then state.fetchBlockEntry
    else if char == '?' && (inFlow || beforeBlank) then state.fetchKey
    else if char == ':' && (inFlow || beforeBlank) then state.fetchValue
    else if char == '*' then state.fetchAnchor .alias
    else if char == '&' then state.fetchAnchor .anchor
    else if char == '!' then state.fetchTag
    else if char == '|' && !inFlow then state.fetchBlockScalar false
    else if char == '>' && !inFlow then state.fetchBlockScalar true
    else if char == '\'' then state.fetchQuoted false
    else if char == '"' then state.fetchQuoted true
    else if startsPlain inFlow text then state.fetchPlain
    else .error .malformed

/-- The number of tokens that are settled: those before the first possible key. -/
def settled (state : Cutting) : Nat :=
  state.possible.foldl (fun least entry =>
    if state.isStale entry.2 then least else min least entry.2.number) state.count

end Cutting

/-! ### Whole texts -/

/-- The tokens handed on, and the fault behind them if the text did not end well. -/
structure Tokens where
  handed : List Token
  fault : Option Fault
  deriving DecidableEq, Repr

/-- Fetches tokens until the end of the text or a fault, in at most the given steps. -/
def cut : Nat → Cutting → Tokens
  | 0, state => ⟨state.recent.reverse, some .malformed⟩
  | steps + 1, state =>
    match state.fetch with
    | .error fault =>
      match state.dropStale with
      | .error _ => ⟨state.recent.reverse.take state.settled, some .malformed⟩
      | .ok _ => ⟨state.recent.reverse.take state.settled, some fault⟩
    | .ok next =>
      if next.recent.head? = some .streamEnd then ⟨next.recent.reverse, none⟩ else cut steps next

/-- The tokens of a text. Each step but the last takes at least one character. -/
def tokensOf (text : List Char) : Tokens :=
  if text.all isAllowed then cut (text.length + 1) { cursor := .start text }
  else ⟨[], some .malformed⟩

end GoApiDoc.Yaml
