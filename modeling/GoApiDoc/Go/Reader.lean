/-
This file reads the top-level declarations of a token list. Only what later stages need is
understood: types with their fields, the spelling of initialisers, the names of functions.
Bodies and parameter lists are skipped by counting brackets.

A production looks at the tokens from where it starts and returns what it read together with
the number of tokens it used; whoever called it goes on with the tokens behind those. Every
recursion is on a proper rest of the tokens, so reading ends on every list.
-/

import GoApiDoc.Go.Declaration
import GoApiDoc.Go.Comment
import GoApiDoc.Go.Literal

namespace GoApiDoc.Go

/-! ### Faults -/

/-- What a production wanted to see. -/
inductive Expectation
  | declaration
  | identifier
  | typeExpression
  | bracket
  | parameterList
  | exactly (text : String)
  | moreInput
  | structEnd
  | groupEnd (keyword : ValueKeyword)
  deriving DecidableEq, Repr

/-- Why a source has no list of declarations. -/
inductive ReadFault
  /-- The source cannot be cut into lexemes, from a line on. -/
  | lexical (fault : LexicalFault) (line : Nat)
  /-- A production met another token, or the end of the tokens. -/
  | unexpected (wanted : Expectation) (found : Option Token)
  /-- The bracket that opens here is never closed. -/
  | unbalanced (opener : Token)
  /-- The literal that should be a struct tag is none. -/
  | badTag (fault : LiteralFault) (literal : Token)
  /-- The tokens end inside a parenthesised group of types. -/
  | openTypeGroup
  deriving DecidableEq, Repr

/-! ### Looking at tokens -/

/-- Whether the next token is the keyword, operator or semicolon of this spelling. -/
def nextIs (text : String) : List Token → Bool
  | [] => false
  | token :: _ => token.is text

/-- Demands that the next token is the one of this spelling; it is not used up. -/
def expect (text : String) (tokens : List Token) : Except ReadFault Unit :=
  if nextIs text tokens then .ok () else .error (.unexpected (.exactly text) tokens.head?)

/-- The identifier that comes next. -/
def identifier (tokens : List Token) : Except ReadFault Token :=
  match tokens with
  | [] => .error (.unexpected .identifier none)
  | token :: _ =>
    if token.kind = .ident then .ok token else .error (.unexpected .identifier (some token))

/-- The tokens up to the bracket that closes `depth + 1` open ones; shapes of brackets are
not compared. -/
def insideBrackets (depth : Nat) : List Token → Option (List Token)
  | [] => none
  | token :: rest =>
    if token.isOpener then (insideBrackets (depth + 1) rest).map (token :: ·)
    else if token.isCloser then
      match depth with
      | 0 => some []
      | depth + 1 => (insideBrackets depth rest).map (token :: ·)
    else (insideBrackets depth rest).map (token :: ·)

/-- Skips a bracketed run and returns the tokens inside. What is not an opening bracket is
used up before it is refused, so the fault shows the token behind it. -/
def skipBalanced (tokens : List Token) : Except ReadFault (List Token × Nat) :=
  match tokens with
  | [] => .error (.unexpected .moreInput none)
  | opener :: rest =>
    if opener.isOpener then
      match insideBrackets 0 rest with
      | some inner => .ok (inner, inner.length + 2)
      | none => .error (.unbalanced opener)
    else .error (.unexpected .bracket rest.head?)

/-! ### Types -/

/-- Whether a type can start with the next token. -/
def startsType : List Token → Bool
  | [] => false
  | token :: _ =>
    match token.kind with
    | .ident => true
    | .keyword => ["map", "chan", "func", "interface", "struct"].contains token.text
    | .op => ["*", "(", "[", "<-"].contains token.text
    | _ => false

/-- Reads a type. -/
def typeRef (tokens : List Token) : Except ReadFault (TypeRef × Nat) :=
  match tokens with
  | [] => .error (.unexpected .typeExpression none)
  | token :: rest =>
    match token.kind with
    | .op =>
      if token.text = "*" then do
        let (element, used) ← typeRef rest
        return (.pointer element, used + 1)
      else if token.text = "(" then do
        let (inner, used) ← typeRef rest
        expect ")" (rest.drop used)
        return (inner, used + 2)
      else if token.text = "[" then do
        let length := rest.takeWhile fun token => !token.is "]"
        if length.length = rest.length then throw (.unexpected .moreInput none)
        let (element, used) ← typeRef (rest.drop (length.length + 1))
        let spelling := if length.isEmpty then none else some (Token.join length)
        return (.sequence element spelling, length.length + used + 2)
      else if token.text = "<-" then do
        expect "chan" rest
        let (_, used) ← typeRef (rest.drop 1)
        return (.other (Token.join (tokens.take (used + 2))), used + 2)
      else .error (.unexpected .typeExpression (some token))
    | .keyword =>
      if token.text = "map" then do
        expect "[" rest
        let (key, keyUsed) ← typeRef (rest.drop 1)
        expect "]" (rest.drop (keyUsed + 1))
        let (value, valueUsed) ← typeRef (rest.drop (keyUsed + 2))
        return (.mapping key value, keyUsed + valueUsed + 3)
      else if token.text = "chan" then do
        let arrow := if nextIs "<-" rest then 1 else 0
        let (_, used) ← typeRef (rest.drop arrow)
        return (.other (Token.join (tokens.take (used + arrow + 1))), used + arrow + 1)
      else if token.text = "interface" ∨ token.text = "struct" then do
        let (_, used) ← skipBalanced rest
        return (.other (Token.join (tokens.take (used + 1))), used + 1)
      else if token.text = "func" then do
        let (_, parameters) ← skipBalanced rest
        let after := rest.drop parameters
        if nextIs "(" after then
          let (_, results) ← skipBalanced after
          return (.other (Token.join (tokens.take (parameters + results + 1))),
            parameters + results + 1)
        else if startsType after then
          let (_, result) ← typeRef after
          return (.other (Token.join (tokens.take (parameters + result + 1))),
            parameters + result + 1)
        else
          return (.other (Token.join (tokens.take (parameters + 1))), parameters + 1)
      else .error (.unexpected .typeExpression (some token))
    | .ident => do
      let (ref, used) := match rest with
        | dot :: name :: _ =>
          if dot.is "." ∧ name.kind = .ident then (.qualified token.text name.text, 3)
          else (.named token.text, 1)
        | _ => ((.named token.text, 1) : TypeRef × Nat)
      if nextIs "[" (tokens.drop used) then
        let (_, arguments) ← skipBalanced (tokens.drop used)
        return (.other (Token.join (tokens.take (used + arguments))), used + arguments)
      return (ref, used)
    | _ => .error (.unexpected .typeExpression (some token))
termination_by tokens.length
decreasing_by all_goals (simp +zetaDelta only [List.length_drop, List.length_cons]; omega)

/-! ### Lists of items -/

/-- Reads items up to and with the token that closes their list. Behind an item comes a semicolon
or the closing token; semicolons between items are passed over. `unclosed` is the fault when the
tokens end before the list does. An item uses at least one token, so what is left behind it is a
rest of `rest`. -/
def itemsUntil {α : Type} (closer : String) (unclosed : ReadFault)
    (item : List Token → Except ReadFault (List α × Nat)) (tokens : List Token) :
    Except ReadFault (List α × Nat) :=
  match tokens with
  | [] => .error unclosed
  | token :: rest =>
    if token.is closer then .ok ([], 1)
    else if token.is ";" then do
      let (items, used) ← itemsUntil closer unclosed item rest
      return (items, used + 1)
    else do
      let (items, used) ← item (token :: rest)
      let after := rest.drop (used - 1)
      if !nextIs closer after then expect ";" after
      let (others, othersUsed) ← itemsUntil closer unclosed item after
      return (items ++ others, used + othersUsed)
termination_by tokens.length
decreasing_by all_goals (simp +zetaDelta only [List.length_drop, List.length_cons]; omega)

/-- What was read, as a list of one item. -/
def single {α : Type} (read : Except ReadFault (α × Nat)) : Except ReadFault (List α × Nat) :=
  read.map fun (item, used) => ([item], used)

/-! ### Struct fields -/

/-- Reads one or more identifiers with commas between them. -/
def identifierList : List Token → Except ReadFault (List String × Nat)
  | [] => .error (.unexpected .identifier none)
  | token :: rest =>
    if token.kind = .ident then
      match rest with
      | [] => .ok ([token.text], 1)
      | comma :: rest =>
        if comma.is "," then do
          let (names, used) ← identifierList rest
          return (token.text :: names, used + 2)
        else .ok ([token.text], 1)
    else .error (.unexpected .identifier (some token))

/-- Reads the struct tag that may follow a field. -/
def fieldTag (tokens : List Token) : Except ReadFault (Option Text × Nat) :=
  match tokens with
  | [] => .ok (none, 0)
  | token :: _ =>
    if token.kind = .string then
      match unquote token.text with
      | .ok tag => .ok (some tag, 1)
      | .error fault => .error (.badTag fault token)
    else .ok (none, 0)

/-- Whether the field that starts here is embedded: a pointer, or a name with nothing but a
package qualifier or a tag behind it. -/
def startsEmbedded (tokens : List Token) : Bool :=
  nextIs "*" tokens ||
    (match tokens with
    | token :: following :: _ =>
      token.kind == .ident &&
        (following.kind == .semicolon || following.kind == .string ||
          following.text == "\x7d" || following.text == ".")
    | _ => false)

/-- The name that an embedded type gives its field: its own, without package or pointers. -/
def embeddedName : TypeRef → String
  | .pointer element => embeddedName element
  | .named name => name
  | .qualified _ name => name
  | other => other.spelling

/-- Reads one field line, which declares a field for each of its names. -/
def fieldDeclaration (tokens : List Token) : Except ReadFault (List Field × Nat) :=
  if startsEmbedded tokens then do
    let (type, used) ← typeRef tokens
    let (tag, tagUsed) ← fieldTag (tokens.drop used)
    return ([⟨embeddedName type, type, tag, true⟩], used + tagUsed)
  else do
    let (names, namesUsed) ← identifierList tokens
    let (type, typeUsed) ← typeRef (tokens.drop namesUsed)
    let (tag, tagUsed) ← fieldTag (tokens.drop (namesUsed + typeUsed))
    return (names.map fun name => ⟨name, type, tag, false⟩, namesUsed + typeUsed + tagUsed)

/-- Reads field lines up to and with the closing brace. -/
def fieldLines : List Token → Except ReadFault (List Field × Nat) :=
  itemsUntil "\x7d" (.unexpected .structEnd none) fieldDeclaration

/-- Reads the braces of a struct and the fields between them. -/
def structFields (tokens : List Token) : Except ReadFault (List Field × Nat) := do
  expect "\x7b" tokens
  let (fields, used) ← fieldLines (tokens.drop 1)
  return (fields, used + 1)

/-! ### Type declarations -/

/-- Whether the bracket behind a type name opens type parameters and not an array length: an
identifier follows, and then something other than the closing bracket. -/
def opensTypeParameters : List Token → Bool
  | bracket :: first :: second :: _ =>
    bracket.is "[" && first.kind == .ident && !second.isOp "]"
  | _ => false

/-- Skips the type parameters behind a type name, if there are any; returns the tokens used. -/
def skipTypeParameters (tokens : List Token) : Except ReadFault Nat :=
  if opensTypeParameters tokens then (skipBalanced tokens).map Prod.snd else .ok 0

/-- Reads what a type name stands for: the fields of a struct, or an underlying type. -/
def typeBody (tokens : List Token) :
    Except ReadFault ((Option (List Field) × Option TypeRef) × Nat) :=
  if nextIs "struct" tokens && nextIs "\x7b" (tokens.drop 1) then do
    let (fields, used) ← structFields (tokens.drop 1)
    return ((some fields, none), used + 1)
  else do
    let (type, used) ← typeRef tokens
    return ((none, some type), used)

/-- Reads one type specification: a name, type parameters to skip, and the type. -/
def typeSpec (doc groupDoc : String) (tokens : List Token) :
    Except ReadFault (TypeDeclaration × Nat) := do
  let name ← identifier tokens
  let parametersUsed ← skipTypeParameters (tokens.drop 1)
  let markUsed := if nextIs "=" (tokens.drop (parametersUsed + 1)) then 1 else 0
  let start := parametersUsed + markUsed + 1
  let ((fields, underlying), used) ← typeBody (tokens.drop start)
  return ({ name := name.text, doc, groupDoc, fields, underlying, line := name.line },
    start + used)

/-- The documentation of the line on which the next token stands. -/
def Docs.aboveNext (docs : Docs) : List Token → String
  | [] => ""
  | token :: _ => docs.above token.line

/-- Reads type specifications up to and with the closing parenthesis. -/
def typeGroup (docs : Docs) (groupDoc : String) :
    List Token → Except ReadFault (List TypeDeclaration × Nat) :=
  itemsUntil ")" .openTypeGroup fun tokens =>
    single (typeSpec (docs.aboveNext tokens) groupDoc tokens)

/-- Reads what follows the keyword of a type declaration. -/
def typeDeclaration (docs : Docs) (keyword : Token) (tokens : List Token) :
    Except ReadFault (List TypeDeclaration × Nat) :=
  let doc := docs.above keyword.line
  if nextIs "(" tokens then do
    let (specs, used) ← typeGroup docs doc (tokens.drop 1)
    return (specs, used + 1)
  else single (typeSpec doc "" tokens)

/-! ### Value declarations -/

/-- Reads initialisers: runs of tokens with commas between them, up to a semicolon or a
closing parenthesis outside all brackets, or the end. `current` holds the tokens of the
present run, the last one first; `depth` counts the open brackets and may fall below zero. -/
def initialisers (depth : Int) (current : List Token) : List Token → List String × Nat
  | [] => (if current.isEmpty then [] else [Token.join current.reverse], 0)
  | token :: rest =>
    if depth = 0 ∧ (token.kind = .semicolon ∨ token.isOp ")") then
      (if current.isEmpty then [] else [Token.join current.reverse], 0)
    else if depth = 0 ∧ token.isOp "," then
      let (values, used) := initialisers depth [] rest
      (Token.join current.reverse :: values, used + 1)
    else
      let depth := if token.isOpener then depth + 1 else if token.isCloser then depth - 1 else depth
      let (values, used) := initialisers depth (token :: current) rest
      (values, used + 1)

/-- Skips the type that may stand behind the names of a value specification; returns the tokens
used. -/
def skipValueType (tokens : List Token) : Except ReadFault Nat :=
  if nextIs "=" tokens || nextIs ";" tokens || nextIs ")" tokens then .ok 0
  else (typeRef tokens).map Prod.snd

/-- Reads one value specification: names, a type to skip, and initialisers. -/
def valueSpec (tokens : List Token) : Except ReadFault (ValueSpec × Nat) := do
  let (names, namesUsed) ← identifierList tokens
  let typeUsed ← skipValueType (tokens.drop namesUsed)
  let start := namesUsed + typeUsed
  if nextIs "=" (tokens.drop start) then
    let (values, used) := initialisers 0 [] (tokens.drop (start + 1))
    return (⟨names, values⟩, start + 1 + used)
  else
    return (⟨names, []⟩, start)

/-- Reads value specifications up to and with the closing parenthesis. -/
def valueGroup (keyword : ValueKeyword) : List Token → Except ReadFault (List ValueSpec × Nat) :=
  itemsUntil ")" (.unexpected (.groupEnd keyword) none) fun tokens => single (valueSpec tokens)

/-- Reads the specifications of a value declaration: a parenthesised group, or a single one. -/
def valueSpecs (keyword : ValueKeyword) (tokens : List Token) :
    Except ReadFault (List ValueSpec × Nat) :=
  if nextIs "(" tokens then do
    let (specs, used) ← valueGroup keyword (tokens.drop 1)
    return (specs, used + 1)
  else single (valueSpec tokens)

/-- Reads what follows the keyword of a value declaration. -/
def valueDeclaration (docs : Docs) (keyword : ValueKeyword) (line : Nat) (tokens : List Token) :
    Except ReadFault (ValueDeclaration × Nat) := do
  let (specs, used) ← valueSpecs keyword tokens
  return (⟨keyword, docs.above line, specs, line⟩, used)

/-! ### Functions -/

/-- The type of a receiver list: the receiver's name is dropped if there is one. -/
def receiverType (tokens : List Token) : String :=
  match tokens with
  | name :: second :: rest =>
    if name.kind = .ident ∧ second.text ≠ "[" then Token.join (second :: rest)
    else Token.join tokens
  | _ => Token.join tokens

/-- Skips a bracketed run if the next token is the given bracket; returns the tokens used. -/
def skipIfNext (bracket : String) (tokens : List Token) : Except ReadFault Nat :=
  if nextIs bracket tokens then (skipBalanced tokens).map Prod.snd else .ok 0

/-- Reads the receiver of a method, if there is one. -/
def receiver (tokens : List Token) : Except ReadFault (Option String × Nat) :=
  if nextIs "(" tokens then do
    let (inner, used) ← skipBalanced tokens
    return (some (receiverType inner), used)
  else .ok (none, 0)

/-- Skips a parameter list, which has to be there; returns the tokens used. -/
def skipParameters (tokens : List Token) : Except ReadFault Nat :=
  if nextIs "(" tokens then (skipBalanced tokens).map Prod.snd
  else .error (.unexpected .parameterList tokens.head?)

/-- Skips the results of a function: a parenthesised list, a type or nothing; returns the tokens
used. -/
def skipResults (tokens : List Token) : Except ReadFault Nat :=
  if nextIs "(" tokens then (skipBalanced tokens).map Prod.snd
  else if startsType tokens then (typeRef tokens).map Prod.snd
  else .ok 0

/-- Reads what follows the keyword of a function declaration, with the body skipped. -/
def functionDeclaration (docs : Docs) (keyword : Token) (tokens : List Token) :
    Except ReadFault (FunctionDeclaration × Nat) := do
  let (receiver, receiverUsed) ← receiver tokens
  let name ← identifier (tokens.drop receiverUsed)
  let signature := tokens.drop (receiverUsed + 1)
  let typeParametersUsed ← skipIfNext "[" signature
  let parametersUsed ← skipParameters (signature.drop typeParametersUsed)
  let resultsUsed ← skipResults (signature.drop (typeParametersUsed + parametersUsed))
  let headUsed := typeParametersUsed + parametersUsed + resultsUsed
  let bodyUsed ← skipIfNext "\x7b" (signature.drop headUsed)
  return (⟨name.text, docs.above keyword.line, receiver, keyword.line⟩,
    receiverUsed + 1 + headUsed + bodyUsed)

/-! ### Files -/

/-- Reads the declaration, package clause or import whose keyword comes first; the keyword is
counted among the tokens used. -/
def topLevel (docs : Docs) (keyword : Token) (rest : List Token) :
    Except ReadFault (List Declaration × Nat) :=
  if keyword.kind ≠ .keyword then .error (.unexpected .declaration (some keyword))
  else if keyword.text = "package" then do
    let _ ← identifier rest
    return ([], 2)
  else if keyword.text = "import" then
    if nextIs "(" rest then do
      let (_, used) ← skipBalanced rest
      return ([], used + 1)
    else .ok ([], (rest.takeWhile fun token => !token.is ";").length + 1)
  else if keyword.text = "type" then do
    let (declarations, used) ← typeDeclaration docs keyword rest
    return (declarations.map .type, used + 1)
  else if keyword.text = "const" then do
    let (declaration, used) ← valueDeclaration docs .const keyword.line rest
    return ([.value declaration], used + 1)
  else if keyword.text = "var" then do
    let (declaration, used) ← valueDeclaration docs .var keyword.line rest
    return ([.value declaration], used + 1)
  else if keyword.text = "func" then do
    let (declaration, used) ← functionDeclaration docs keyword rest
    return ([.function declaration], used + 1)
  else .error (.unexpected .declaration (some keyword))

/-- Reads all declarations; each ends with a semicolon or the end of the tokens. -/
def declarations (docs : Docs) (tokens : List Token) : Except ReadFault (List Declaration) :=
  match tokens with
  | [] => .ok []
  | token :: rest =>
    if token.kind = .semicolon then declarations docs rest
    else do
      let (found, used) ← topLevel docs token rest
      let after := rest.drop (used - 1)
      if !after.isEmpty then expect ";" after
      let others ← declarations docs after
      return found ++ others
termination_by tokens.length
decreasing_by all_goals (simp +zetaDelta only [List.length_drop, List.length_cons]; omega)

end GoApiDoc.Go
