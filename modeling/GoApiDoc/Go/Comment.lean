/-
This file says which comment documents which line. Comments that stand on lines of their own
and follow each other without a gap form a group; the text of a group, without the marks and
with its blank lines reduced, documents the line below its last one.
-/

import GoApiDoc.Go.Layout
import GoApiDoc.Text.Blank

namespace GoApiDoc.Go

open Text

/-! ### The text of a group -/

/-- The lines of a comment without its marks; one space after a line comment's mark belongs
to the mark. -/
def Comment.lines (comment : Comment) : List (List Char) :=
  match comment.text with
  | '/' :: '/' :: ' ' :: body => [body]
  | '/' :: '/' :: body => [body]
  | text => ((text.drop 2).take (text.length - 4)).splitOn '\n'

/-- Drops a blank line that comes first or follows a blank line. `afterText` says whether the
line before has text. -/
def collapseBlanks (afterText : Bool) : List (List Char) → List (List Char)
  | [] => []
  | line :: rest =>
    if line.isEmpty then
      if afterText then line :: collapseBlanks false rest else collapseBlanks false rest
    else line :: collapseBlanks true rest

/-- The lines without the blank ones at the end. -/
def dropTrailingBlanks (lines : List (List Char)) : List (List Char) :=
  (lines.reverse.dropWhile List.isEmpty).reverse

/-- The text of comment lines: each without blanks at its end, no blank line first or last,
no two blank lines in a row, and a line break after each line. -/
def docText (lines : List (List Char)) : String :=
  String.ofList
    ((dropTrailingBlanks (collapseBlanks false (lines.map trimRight))).flatMap (· ++ ['\n']))

/-- The text of a group of comments. -/
def groupText (group : List Comment) : String :=
  docText (group.flatMap Comment.lines)

/-! ### Groups -/

/-- The groups among the comments, `group` being the one that is open. A comment that stands
after a token closes the open group and opens none. -/
def groupsFrom (group : List Comment) : List Comment → List (List Comment)
  | [] => if group.isEmpty then [] else [group]
  | comment :: rest =>
    let continues := comment.ownLine &&
      (match group.getLast? with
      | some previous => comment.first ≤ previous.last + 1
      | none => true)
    if continues then groupsFrom (group ++ [comment]) rest
    else
      let opened := if comment.ownLine then [comment] else []
      if group.isEmpty then groupsFrom opened rest else group :: groupsFrom opened rest

/-- The documentation of a source: for each group of comments its last line and its text. -/
abbrev Docs := List (Nat × String)

/-- The documentation that the comments hold. -/
def docsOf (comments : List Comment) : Docs :=
  (groupsFrom [] comments).map fun group =>
    ((group.getLast?.map Comment.last).getD 0, groupText group)

/-- The text of the last group that ends on the line before this one, or nothing. -/
def Docs.above (docs : Docs) (line : Nat) : String :=
  ((docs.reverse.find? fun entry => entry.1 + 1 == line).map Prod.snd).getD ""

end GoApiDoc.Go
