/-
This file reads the text of scalars in their three forms: quoted, plain and block. A reader
looks at the characters from the scalar on and returns the text with the number of characters
it took. Line breaks inside quoted and plain scalars fold: a single one becomes a space, and
of several the first is dropped. Only an escape, which double quotes allow, can name a code point
that is no character.
-/

import GoApiDoc.Yaml.Cursor
import GoApiDoc.Yaml.Fault
import GoApiDoc.Text
import GoApiDoc.Text.Word

namespace GoApiDoc.Yaml

open Text

/-- The number of leading characters of a class. -/
def runOf (inClass : Char → Bool) (text : List Char) : Nat :=
  (text.takeWhile inClass).length

/-- A space or a tab. -/
def isSpaceOrTab (char : Char) : Bool :=
  char == ' ' || char == '\t'

/-! ### Quoted scalars -/

/-- The blank lines after a line break inside quotes: their breaks and the characters taken,
the blanks before the next text included. A document mark may not stand there. -/
def quotedBreaks (text : List Char) : Except Fault (List Char × Nat) :=
  if atDocumentMark text then .error .malformed
  else
    let blanks := runOf isSpaceOrTab text
    match _found : text.drop blanks with
    | [] => .ok ([], blanks)
    | char :: rest =>
      if isBreak char then do
        let (kept, length) := lineBreak (char :: rest)
        let (breaks, used) ← quotedBreaks (rest.drop (length - 1))
        return (kept ++ breaks, blanks + length + used)
      else return ([], blanks)
termination_by text.length
decreasing_by
  have lengths := congrArg List.length _found
  simp only [List.length_drop, List.length_cons] at lengths ⊢
  omega

/-- What a line break and the blank lines behind it stand for. -/
def foldBreaks (first : List Char) (breaks : List Char) : List Char :=
  (if first ≠ ['\n'] then first else if breaks.isEmpty then [' '] else []) ++ breaks

/-- Blanks inside quotes: kept within a line, folded at a line break. -/
def quotedBlanks (text : List Char) : Except Fault (List Char × Nat) :=
  let blanks := runOf isSpaceOrTab text
  let after := text.drop blanks
  match after with
  | [] => .error .malformed
  | char :: _ =>
    if isBreak char then do
      let (first, length) := lineBreak after
      let (breaks, used) ← quotedBreaks (after.drop length)
      return (foldBreaks first breaks, blanks + length + used)
    else return (text.take blanks, blanks)

/-- The character that an escape of one letter stands for. -/
def escapedChar : Char → Option Char
  | '0' => some '\x00'
  | 'a' => some '\x07'
  | 'b' => some '\x08'
  | 't' => some '\t'
  | '\t' => some '\t'
  | 'n' => some '\n'
  | 'v' => some '\x0b'
  | 'f' => some '\x0c'
  | 'r' => some '\r'
  | 'e' => some '\x1b'
  | ' ' => some ' '
  | '"' => some '"'
  | '\\' => some '\\'
  | '/' => some '/'
  | 'N' => some '\x85'
  | '_' => some '\xa0'
  | 'L' => some '\u2028'
  | 'P' => some '\u2029'
  | _ => none

/-- The number of hexadecimal digits behind an escape letter. -/
def escapeWidth : Char → Option Nat
  | 'x' => some 2
  | 'u' => some 4
  | 'U' => some 8
  | _ => none

/-- The number that hexadecimal digits spell. -/
def hexNumber (digits : List Char) : Nat :=
  digits.foldl (fun value digit => value * 16 + (hexValue digit).getD 0) 0

/-- The code point of a number, if there is one. -/
def escapedPoint (number : Nat) : Except Fault Point :=
  if 0x80000000 ≤ number then .error .escapeTooLarge
  else
    match Point.ofNat? number with
    | some point => .ok point
    | none => .error .outOfRange

/-- The escape whose text follows a backslash: what it stands for and the characters taken
behind the backslash. An escaped line break stands for nothing but the blank lines that
follow it. -/
def quotedEscape (text : List Char) : Except Fault (List Point × Nat) :=
  match text with
  | [] => .error .malformed
  | letter :: rest =>
    match escapedChar letter with
    | some char => .ok ([.char char], 1)
    | none =>
      match escapeWidth letter with
      | some width =>
        let digits := rest.take width
        if digits.length = width ∧ digits.all isHexDigit then do
          let point ← escapedPoint (hexNumber digits)
          return ([point], width + 1)
        else .error .malformed
      | none =>
        if isBreak letter then do
          let (_, length) := lineBreak text
          let (breaks, used) ← quotedBreaks (text.drop length)
          return (breaks.map .char, length + used)
        else .error .malformed

/-- The text up to the closing quote, and the characters taken with it. Between single quotes
only a doubled quote is special; between double quotes a backslash starts an escape. -/
def quotedScalar (double : Bool) (text : List Char) : Except Fault (List Point × Nat) :=
  match text with
  | [] => .error .malformed
  | char :: rest =>
    if !double && char == '\'' && peek rest == '\'' then do
      let (value, used) ← quotedScalar double (rest.drop 1)
      return (.char '\'' :: value, used + 2)
    else if char == (if double then '"' else '\'') then .ok ([], 1)
    else if double && char == '\\' then do
      let (piece, length) ← quotedEscape rest
      let (value, used) ← quotedScalar double (rest.drop length)
      return (piece ++ value, length + used + 1)
    else if isSpaceOrTab char || isBreak char then do
      let (piece, length) ← quotedBlanks (char :: rest)
      let (value, used) ← quotedScalar double (rest.drop (length - 1))
      return (piece.map .char ++ value, length + used)
    else do
      let (value, used) ← quotedScalar double rest
      return (.char char :: value, used + 1)
termination_by text.length
decreasing_by all_goals (simp only [List.length_drop, List.length_cons]; omega)

/-! ### Plain scalars -/

/-- A character that structures flow collections. -/
def isFlowMark (char : Char) : Bool :=
  char == ',' || char == '[' || char == ']' || char == '{' || char == '}'

/-- The length of the next run of plain text: up to a blank, a colon that ends a key, or in a
flow collection one of its marks. -/
def plainRun (inFlow : Bool) : List Char → Nat
  | [] => 0
  | char :: rest =>
    if isBlankOrEnd char then 0
    else if char == ':' && (isBlankOrEnd (peek rest) || (inFlow && isFlowMark (peek rest))) then 0
    else if inFlow && (char == '?' || isFlowMark char) then 0
    else plainRun inFlow rest + 1

/-- What lies between two runs of a plain scalar: its text, the characters taken, whether a
line break was passed, and the column reached behind it. -/
structure PlainGap where
  text : List Char
  used : Nat
  broken : Bool
  column : Nat

/-- The blank lines behind a line break in a plain scalar: their breaks, the characters taken,
and the column reached; `none` in front of a document mark. -/
def plainBreaks (column : Nat) (text : List Char) : Option (List Char) × Nat × Nat :=
  match text with
  | [] => (some [], 0, column)
  | char :: rest =>
    if char == ' ' then
      let (breaks, used, reached) := plainBreaks (column + 1) rest
      (breaks, used + 1, reached)
    else if isBreak char then
      let (kept, length) := lineBreak (char :: rest)
      let after := rest.drop (length - 1)
      if atDocumentMark after then (none, length, 0)
      else
        let (breaks, used, reached) := plainBreaks 0 after
        (breaks.map (kept ++ ·), length + used, reached)
    else (some [], 0, column)
termination_by text.length
decreasing_by all_goals (simp +zetaDelta only [List.length_drop, List.length_cons]; omega)

/-- The gap behind a run of plain text. In front of a document mark it has no text. -/
def plainGap (text : List Char) : PlainGap :=
  let blanks := runOf (· == ' ') text
  let after := text.drop blanks
  if isBreak (peek after) then
    let (first, length) := lineBreak after
    if atDocumentMark (after.drop length) then ⟨[], blanks + length, true, 0⟩
    else
      match plainBreaks 0 (after.drop length) with
      | (none, used, column) => ⟨[], blanks + length + used, true, column⟩
      | (some breaks, used, column) =>
        ⟨foldBreaks first breaks, blanks + length + used, true, column⟩
  else ⟨text.take blanks, blanks, false, 0⟩

/-- A plain scalar: its text, the characters taken, and whether it ends behind a line break.
In a block it goes on only on lines indented by at least `indent`. -/
def plainScalar (inFlow : Bool) (indent : Int) (text : List Char) : List Char × Nat × Bool :=
  match text with
  | [] => ([], 0, false)
  | first :: others =>
    let length := plainRun inFlow text
    if first == '#' || length == 0 then ([], 0, false)
    else
      let run := text.take length
      let gap := plainGap (others.drop (length - 1))
      let after := others.drop (length - 1 + gap.used)
      if gap.text.isEmpty || peek after == '#' ||
          (!inFlow && gap.broken && (gap.column : Int) < indent) then
        (run, length + gap.used, gap.broken)
      else
        let (more, used, broken) := plainScalar inFlow indent after
        if more.isEmpty then (run, length + gap.used, gap.broken)
        else (run ++ gap.text ++ more, length + gap.used + used, broken)
termination_by text.length
decreasing_by all_goals (simp +zetaDelta only [List.length_drop, List.length_cons]; omega)

/-! ### Block scalars -/

/-- What becomes of the line breaks at the end of a block scalar. -/
inductive Chomping
  | strip
  | clip
  | keep
  deriving DecidableEq, Repr

/-- The indicators behind the mark of a block scalar: chomping, an explicit indentation, and
the characters taken. -/
def blockIndicators (text : List Char) : Except Fault (Chomping × Option Nat × Nat) := do
  let chompingOf (char : Char) : Option Chomping :=
    if char == '+' then some .keep else if char == '-' then some .strip else none
  let increment (char : Char) : Except Fault (Option Nat) :=
    if isAsciiDigit char then
      if char == '0' then .error .malformed else .ok (hexValue char)
    else .ok none
  let first := peek text
  let (chomping, indentation, used) ←
    match chompingOf first with
    | some chomping => do
      match ← increment (peekAt 1 text) with
      | some width => pure (chomping, some width, 2)
      | none => pure (chomping, none, 1)
    | none => do
      match ← increment first with
      | some width =>
        match chompingOf (peekAt 1 text) with
        | some chomping => pure (chomping, some width, 2)
        | none => pure (.clip, some width, 1)
      | none => pure (.clip, none, 0)
  if isSpaceOrEnd (peekAt used text) then return (chomping, indentation, used)
  else throw .malformed

/-- The rest of the line behind indicators or a directive: blanks and a comment, with the line
break; the characters taken. -/
def ignoredLine (text : List Char) : Except Fault Nat :=
  let blanks := runOf (· == ' ') text
  let after := text.drop blanks
  let comment := if peek after == '#' then runOf (fun char => !isBreakOrEnd char) after else 0
  let ending := after.drop comment
  if isBreakOrEnd (peek ending) then .ok (blanks + comment + (lineBreak ending).2)
  else .error .malformed

/-- The blank lines in front of a block scalar whose indentation is not given: their breaks,
the characters taken, the deepest column seen, and the column reached. -/
def leadingBreaks (column deepest : Nat) (text : List Char) : List Char × Nat × Nat × Nat :=
  match text with
  | [] => ([], 0, deepest, column)
  | char :: rest =>
    if char == ' ' then
      let (breaks, used, deepest, reached) :=
        leadingBreaks (column + 1) (max deepest (column + 1)) rest
      (breaks, used + 1, deepest, reached)
    else if isBreak char then
      let (kept, length) := lineBreak (char :: rest)
      let (breaks, used, deepest, reached) := leadingBreaks 0 deepest (rest.drop (length - 1))
      (kept ++ breaks, length + used, deepest, reached)
    else ([], 0, deepest, column)
termination_by text.length
decreasing_by all_goals (simp only [List.length_drop, List.length_cons]; omega)

/-- The blank lines and the indentation in front of the next line of a block scalar: the
breaks, the characters taken, and the column reached, which is at most `indent`. -/
def blockBreaks (indent column : Nat) (text : List Char) : List Char × Nat × Nat :=
  match text with
  | [] => ([], 0, column)
  | char :: rest =>
    if char == ' ' && column < indent then
      let (breaks, used, reached) := blockBreaks indent (column + 1) rest
      (breaks, used + 1, reached)
    else if isBreak char then
      let (kept, length) := lineBreak (char :: rest)
      let (breaks, used, reached) := blockBreaks indent 0 (rest.drop (length - 1))
      (kept ++ breaks, length + used, reached)
    else ([], 0, column)
termination_by text.length
decreasing_by all_goals (simp only [List.length_drop, List.length_cons]; omega)

/-- The lines of a block scalar from its first line of text on: the text up to the last line
break, that line break, the breaks behind it, and the characters taken. -/
def blockLines (folded : Bool) (indent : Nat) (text : List Char) :
    List Char × List Char × List Char × Nat :=
  match text with
  | [] => ([], [], [], 0)
  | first :: others =>
    let length := runOf (fun char => !isBreakOrEnd char) text
    let line := text.take length
    let ending := text.drop length
    let (lineEnd, endLength) := lineBreak ending
    let (breaks, breaksUsed, column) := blockBreaks indent 0 (ending.drop endLength)
    let used := length + endLength + breaksUsed
    let after := others.drop (used - 1)
    if endLength != 0 && column == indent && peek after != endMark then
      let (value, lastEnd, lastBreaks, more) := blockLines folded indent after
      let join :=
        if folded && lineEnd == ['\n'] && !isSpaceOrTab first && !isSpaceOrTab (peek after) then
          if breaks.isEmpty then [' '] else []
        else lineEnd
      (line ++ join ++ breaks ++ value, lastEnd, lastBreaks, used + more)
    else (line, lineEnd, breaks, used)
termination_by text.length
decreasing_by all_goals (simp +zetaDelta only [List.length_drop, List.length_cons]; omega)

/-- A block scalar from behind its mark on: its text and the characters taken. `parent` is the
indentation of the block around it. -/
def blockScalar (folded : Bool) (parent : Int) (text : List Char) :
    Except Fault (List Char × Nat) := do
  let (chomping, indentation, indicatorsUsed) ← blockIndicators text
  let ignored ← ignoredLine (text.drop indicatorsUsed)
  let start := indicatorsUsed + ignored
  let least := (max (parent + 1) 1).toNat
  let body := text.drop start
  let (breaks, breaksUsed, column, indent) := match indentation with
    | none =>
      let (breaks, used, deepest, column) := leadingBreaks 0 0 body
      (breaks, used, column, max least deepest)
    | some width =>
      let indent := least + width - 1
      let (breaks, used, column) := blockBreaks indent 0 body
      (breaks, used, column, indent)
  let lines := body.drop breaksUsed
  if column == indent && peek lines != endMark then
    let (value, lineEnd, lastBreaks, used) := blockLines folded indent lines
    let ending := match chomping with
      | .strip => []
      | .clip => lineEnd
      | .keep => lineEnd ++ lastBreaks
    return (breaks ++ value ++ ending, start + breaksUsed + used)
  else
    return (if chomping = .keep then breaks else [], start + breaksUsed)

end GoApiDoc.Yaml
