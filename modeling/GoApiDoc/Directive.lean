/-
This file finds the directive in the comment of a declaration. Functions carry descriptions
of the interface or of paths, values carry descriptions of parameters, and a type is marked
as a schema. A parameter takes its name from the one string literal that its value is bound
to, so a marked value of any other form is an error and not a missing directive.
-/

import GoApiDoc.Go.Declaration
import GoApiDoc.Go.Literal
import GoApiDoc.Text.Blank

namespace GoApiDoc

open Go Text

/-! ### Directives -/

/-- What a directive describes. -/
inductive DirectiveKind
  | info
  | path
  | parameter
  | objectSchema
  deriving DecidableEq, Repr

/-- The word for the kind, as it stands in the tag. -/
def DirectiveKind.word : DirectiveKind → String
  | .info => "info"
  | .path => "path"
  | .parameter => "parameter"
  | .objectSchema => "objectSchema"

/-- The tag that marks a comment as a directive of the kind. -/
def DirectiveKind.tag (kind : DirectiveKind) : String :=
  "gopenapi:" ++ kind.word

/-- A directive: the text after its tag is the body, the trimmed comment that holds it is kept
for messages. `name` is the component it defines and `parameterName` the decoded literal of a
parameter. -/
structure Directive where
  kind : DirectiveKind
  declaration : Declaration
  name : Option String := none
  body : String := ""
  comment : String := ""
  parameterName : Option Text := none
  deriving DecidableEq, Repr

/-! ### Faults -/

/-- Why a value marked as a parameter gives none. -/
inductive ParameterFault
  /-- There is not exactly one name bound to exactly one initialiser. -/
  | notOneLiteral (declaration : ValueDeclaration)
  /-- The initialiser is no string literal. -/
  | badLiteral (name literal : String) (fault : LiteralFault)
  deriving DecidableEq, Repr

/-- The fault in words. -/
def ParameterFault.message : ParameterFault → String
  | .notOneLiteral declaration =>
    let names := ", ".intercalate (declaration.specs.flatMap ValueSpec.names)
    let values := ", ".intercalate (declaration.specs.flatMap ValueSpec.values)
    "failed to decode literal " ++ (if values.isEmpty then "<none>" else values) ++ " of " ++
      (if names.isEmpty then declaration.keyword.text else names) ++
      ": a parameter directive needs exactly one name bound to exactly one string literal"
  | .badLiteral name literal fault =>
    "failed to decode literal " ++ literal ++ " of " ++ name ++ ": " ++ fault.message literal

/-! ### Extraction -/

/-- The comment without the blanks around it, with each tab widened to four spaces. -/
def cleanComment (text : String) : String :=
  String.ofList ((trim text.toList).flatMap fun char =>
    if char = '\t' then [' ', ' ', ' ', ' '] else [char])

/-- The text behind the tag of the kind, if the comment starts with it. -/
def bodyAfterTag (kind : DirectiveKind) (comment : String) : Option String :=
  (kind.tag.toList.isPrefixOf? comment.toList).map String.ofList

/-- Whether the characters occur next to each other somewhere in the text. -/
def occursIn (part : List Char) : List Char → Bool
  | [] => part.isEmpty
  | char :: rest => part.isPrefixOf (char :: rest) || occursIn part rest

/-- The directive of a function: the kind whose tag starts the comment. -/
def functionDirective (declaration : FunctionDeclaration) : Option Directive :=
  let comment := cleanComment declaration.doc
  [DirectiveKind.info, .path].findSome? fun kind =>
    (bodyAfterTag kind comment).map fun body =>
      { kind, declaration := .function declaration, body, comment }

/-- The directive of a type: its tag may stand anywhere in the comment of the type or of the
group around it. -/
def typeDirective (declaration : TypeDeclaration) : Option Directive :=
  let texts := [declaration.groupDoc, declaration.doc].filter fun text => !text.isEmpty
  let doc := "\n".intercalate texts
  if occursIn DirectiveKind.objectSchema.tag.toList doc.toList then
    some {
      kind := .objectSchema
      declaration := .type declaration
      name := some declaration.name
      comment := cleanComment doc }
  else none

/-- The directive of a value: it needs one name bound to one literal. -/
def valueDirective (declaration : ValueDeclaration) : Except ParameterFault (Option Directive) :=
  let comment := cleanComment declaration.doc
  match bodyAfterTag .parameter comment with
  | none => .ok none
  | some body =>
    match declaration.specs with
    | [⟨[name], [literal]⟩] =>
      match unquote literal with
      | .error fault => .error (.badLiteral name literal fault)
      | .ok parameterName =>
        .ok (some {
          kind := .parameter
          declaration := .value declaration
          name := some name
          body
          comment
          parameterName := some parameterName })
    | _ => .error (.notOneLiteral declaration)

/-- The directive that a declaration carries, if it carries one. -/
def extractDirective : Declaration → Except ParameterFault (Option Directive)
  | .function declaration => .ok (functionDirective declaration)
  | .type declaration => .ok (typeDirective declaration)
  | .value declaration => valueDirective declaration

end GoApiDoc
