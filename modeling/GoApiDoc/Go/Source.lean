/-
This file reads a whole source: cut into lexemes, laid out as tokens and comments, and read
as declarations. A fault is given the line that its message names: that of the token at
fault, or that of the last token when the tokens came to an end too early.
-/

import GoApiDoc.Go.Reader

namespace GoApiDoc.Go

open Text

/-! ### Messages -/

/-- What was wanted, in words. -/
def Expectation.message : Expectation → String
  | .declaration => "expected declaration"
  | .identifier => "expected identifier"
  | .typeExpression => "expected type"
  | .bracket => "expected bracket"
  | .parameterList => "expected parameter list"
  | .exactly text => "expected " ++ quoted text
  | .moreInput => "unexpected end of file"
  | .structEnd => "struct not terminated"
  | .groupEnd keyword => keyword.text ++ " group not terminated"

/-- How a message shows the token it met. -/
def Token.shown (token : Token) : String :=
  if token.kind = .semicolon then "newline" else quoted token.text

/-- The fault in words, without the place. -/
def ReadFault.message : ReadFault → String
  | .lexical fault _ => fault.message
  | .unexpected wanted none => wanted.message
  | .unexpected wanted (some token) => wanted.message ++ ", found " ++ token.shown
  | .unbalanced opener => "unbalanced " ++ quoted opener.text
  | .badTag fault literal => "bad struct tag: " ++ fault.message literal.text
  | .openTypeGroup => "type group not terminated"

/-- The line of the fault; `last` is the line of the last token. -/
def ReadFault.line (last : Option Nat) : ReadFault → Option Nat
  | .lexical _ line => some line
  | .unexpected _ none => last
  | .unexpected _ (some token) => some token.line
  | .unbalanced opener => some opener.line
  | .badTag _ literal => some literal.line
  | .openTypeGroup => last

/-- A fault with the line its message names. -/
structure SourceFault where
  fault : ReadFault
  line : Option Nat
  deriving DecidableEq, Repr

/-- The message for a place and a reason. -/
def failedToInterpret (path : String) (line : Option Nat) (reason : String) : String :=
  let place := match line with
    | some line => path ++ ":" ++ toString line
    | none => path
  "failed to interpret file " ++ place ++ ": " ++ reason

/-- The message for the source at a path. -/
def SourceFault.message (path : String) (fault : SourceFault) : String :=
  failedToInterpret path fault.line fault.fault.message

/-! ### Reading -/

/-- The tokens and comments of a source. -/
def layoutOf (source : String) : Except SourceFault Layout :=
  match lexemes source.toList with
  | .error (fault, line) => .error ⟨.lexical fault line, some line⟩
  | .ok found => .ok (Layout.ofLexemes found)

/-- The declarations of a layout. -/
def Layout.declarations (layout : Layout) : Except SourceFault (List Declaration) :=
  match Go.declarations (docsOf layout.comments) layout.tokens with
  | .error fault => .error ⟨fault, fault.line (layout.tokens.getLast?.map Token.line)⟩
  | .ok found => .ok found

/-- The top-level declarations of a source, in order. -/
def readSource (source : String) : Except SourceFault (List Declaration) := do
  (← layoutOf source).declarations

end GoApiDoc.Go
