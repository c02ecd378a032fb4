/-
This file holds the tokens of Go as far as declarations need them: a kind, the spelling, and
the line on which the token starts. A token that a line break puts in to end a statement is a
semicolon like one that is written out.
-/

namespace GoApiDoc.Go

/-- The kinds of token. -/
inductive TokenKind
  | ident
  | keyword
  | number
  | string
  | rune
  | op
  | semicolon
  deriving DecidableEq, Repr

/-- A token: kind, spelling, and the line it starts on. -/
structure Token where
  kind : TokenKind
  text : String
  line : Nat
  deriving DecidableEq, Repr

/-- The reserved words. -/
def keywords : List String :=
  ["break", "case", "chan", "const", "continue", "default", "defer", "else",
   "fallthrough", "for", "func", "go", "goto", "if", "import", "interface",
   "map", "package", "range", "return", "select", "struct", "switch", "type",
   "var"]

namespace Token

/-- The semicolon that ends a statement on a line. -/
def terminator (line : Nat) : Token :=
  ⟨.semicolon, ";", line⟩

/-- Whether a line break after the token ends the statement. -/
def endsStatement (token : Token) : Bool :=
  match token.kind with
  | .ident | .number | .string | .rune => true
  | .keyword => ["break", "continue", "fallthrough", "return"].contains token.text
  | .op => [")", "]", "\x7d", "++", "--"].contains token.text
  | .semicolon => false

/-- Whether the token is the keyword, operator or semicolon of this spelling. -/
def is (token : Token) (text : String) : Bool :=
  token.text == text &&
    (token.kind == .op || token.kind == .semicolon || token.kind == .keyword)

/-- Whether the token is the operator of this spelling. -/
def isOp (token : Token) (text : String) : Bool :=
  token.kind == .op && token.text == text

/-- An opening bracket of any shape. -/
def isOpener (token : Token) : Bool :=
  token.kind == .op && ["(", "[", "\x7b"].contains token.text

/-- A closing bracket of any shape. -/
def isCloser (token : Token) : Bool :=
  token.kind == .op && [")", "]", "\x7d"].contains token.text

/-- A token that needs a space between it and another such token. -/
def isWord (token : Token) : Bool :=
  match token.kind with
  | .ident | .keyword | .number | .string | .rune => true
  | .op | .semicolon => false

/-- The spelling of a run of tokens that follows `previous`. -/
def joinAfter (previous : Token) : List Token → String
  | [] => ""
  | token :: rest =>
    (if previous.isWord && token.isWord then " " else "") ++ token.text ++ joinAfter token rest

/-- The spelling of a run of tokens, with a space only between two words. -/
def join : List Token → String
  | [] => ""
  | token :: rest => token.text ++ joinAfter token rest

end Token

end GoApiDoc.Go
