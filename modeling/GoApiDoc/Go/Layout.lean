/-
This file turns lexemes into the two lists the reader works on: the tokens, with a semicolon
put in where a line break ends a statement, and the comments, each marked as standing on a
line of its own or after a token.
-/

import GoApiDoc.Go.Lexeme

namespace GoApiDoc.Go

/-- A comment: its text with the marks, its first and last line, and whether no token ends on
its first line before it. -/
structure Comment where
  text : List Char
  first : Nat
  last : Nat
  ownLine : Bool
  deriving DecidableEq, Repr

/-- The tokens and the comments of a source, each in order. -/
structure Layout where
  tokens : List Token
  comments : List Comment
  deriving DecidableEq, Repr

namespace Layout

/-- The layout with one more token in front. -/
def withToken (token : Token) (layout : Layout) : Layout :=
  { layout with tokens := token :: layout.tokens }

/-- The layout with one more comment in front. -/
def withComment (comment : Comment) (layout : Layout) : Layout :=
  { layout with comments := comment :: layout.comments }

/-- The layout with a semicolon in front if a statement is to end there. -/
def endingStatement (ends : Bool) (line : Nat) (layout : Layout) : Layout :=
  if ends then layout.withToken (.terminator line) else layout

/-- Arranges the lexemes that follow. `ends` says whether a line break here would end a
statement, `tokenLine` is the line on which the last token ends, `line` the current one. -/
def arrange (ends : Bool) (tokenLine line : Nat) : List Lexeme → Layout
  | [] => endingStatement ends line ⟨[], []⟩
  | lexeme :: rest =>
    let next := lexeme.line + lexeme.lineBreaks
    match lexeme.shape with
    | .blank => arrange ends tokenLine next rest
    | .newline => endingStatement ends lexeme.line (arrange false tokenLine next rest)
    | .lineComment =>
      withComment ⟨lexeme.text, lexeme.line, lexeme.line, tokenLine != lexeme.line⟩
        (arrange ends tokenLine next rest)
    | .blockComment =>
      let breaks := lexeme.lineBreaks != 0
      withComment ⟨lexeme.text, lexeme.line, next, tokenLine != lexeme.line⟩
        (endingStatement (breaks && ends) lexeme.line
          (arrange (ends && !breaks) tokenLine next rest))
    | .token kind =>
      let token : Token := ⟨kind, String.ofList lexeme.text, lexeme.line⟩
      withToken token (arrange token.endsStatement next next rest)

/-- The tokens and comments of a list of lexemes. -/
def ofLexemes (lexemes : List Lexeme) : Layout :=
  arrange false 0 1 lexemes

end Layout

end GoApiDoc.Go
