/-
This file holds what is known of a Go source after reading: type references and the three
kinds of top-level declaration, each with the comment above it and its line.
-/

import GoApiDoc.Text

namespace GoApiDoc.Go

/-! ### Types -/

/-- A type expression. What has no schema (functions, channels, interfaces, inline structs,
instantiated generics) is kept as its spelling. -/
inductive TypeRef
  | named (name : String)
  | qualified (package name : String)
  | pointer (element : TypeRef)
  | sequence (element : TypeRef) (length : Option String)
  | mapping (key value : TypeRef)
  | other (text : String)
  deriving DecidableEq, Repr

/-- The spelling of a type. -/
def TypeRef.spelling : TypeRef → String
  | .named name => name
  | .qualified package name => package ++ "." ++ name
  | .pointer element => "*" ++ element.spelling
  | .sequence element length => "[" ++ length.getD "" ++ "]" ++ element.spelling
  | .mapping key value => "map[" ++ key.spelling ++ "]" ++ value.spelling
  | .other text => text

/-! ### Declarations -/

/-- A field of a struct. An embedded field is named after its type. -/
structure Field where
  name : String
  type : TypeRef
  tag : Option Text := none
  embedded : Bool := false
  deriving DecidableEq, Repr

/-- A type declaration: a struct has fields, any other type an underlying type. `groupDoc`
documents the parenthesised group that it stands in. -/
structure TypeDeclaration where
  name : String
  doc : String := ""
  groupDoc : String := ""
  fields : Option (List Field) := none
  underlying : Option TypeRef := none
  line : Nat := 0
  deriving DecidableEq, Repr

/-- Which of the two keywords declares values. -/
inductive ValueKeyword
  | const
  | var
  deriving DecidableEq, Repr

/-- The spelling of the keyword. -/
def ValueKeyword.text : ValueKeyword → String
  | .const => "const"
  | .var => "var"

/-- One line of a value declaration: the names and the spellings of the initialisers. -/
structure ValueSpec where
  names : List String
  values : List String := []
  deriving DecidableEq, Repr

/-- A declaration of constants or variables, alone or in a group. -/
structure ValueDeclaration where
  keyword : ValueKeyword
  doc : String := ""
  specs : List ValueSpec := []
  line : Nat := 0
  deriving DecidableEq, Repr

/-- A function or, with a receiver, a method. -/
structure FunctionDeclaration where
  name : String
  doc : String := ""
  receiver : Option String := none
  line : Nat := 0
  deriving DecidableEq, Repr

/-- A top-level declaration. -/
inductive Declaration
  | type (declaration : TypeDeclaration)
  | value (declaration : ValueDeclaration)
  | function (declaration : FunctionDeclaration)
  deriving DecidableEq, Repr

/-- The line on which the declaration starts. -/
def Declaration.line : Declaration → Nat
  | .type declaration => declaration.line
  | .value declaration => declaration.line
  | .function declaration => declaration.line

/-- The text above the declaration. -/
def Declaration.doc : Declaration → String
  | .type declaration => declaration.doc
  | .value declaration => declaration.doc
  | .function declaration => declaration.doc

end GoApiDoc.Go
