/-
This file assembles a document from directives. The description of the interface, parameters
and schemas replace what was there under the same name; paths are merged. A directive that
fails leaves the document as it was, except that a schema directive makes sure that there is
a table of schemas before it derives the schema.
-/

import GoApiDoc.Document.Merging
import GoApiDoc.SchemaOf
import GoApiDoc.Yaml.Load

namespace GoApiDoc

open Document Go Text Yaml

/-! ### Faults -/

/-- Why a directive cannot be applied. -/
inductive DirectiveFault
  /-- The body has no value. -/
  | unreadable (fault : Yaml.Fault)
  /-- The body is empty. -/
  | noBody (kind : DirectiveKind)
  /-- The body of a parameter is no mapping. -/
  | notMapping
  /-- The body does not fit the part of the document that it describes. -/
  | misfits (misfits : List Misfit)
  /-- The body has a number in place of a text, and the number has no text. -/
  | numberTooLong
  /-- The declaration of a schema directive is no type. -/
  | notType
  /-- A struct tag has an escape that is too large. -/
  | badTag (fault : LiteralFault)
  deriving DecidableEq, Repr

/-! ### Applying directives -/

/-- The value of the body of a directive, which may not be null. -/
def decodeBody (directive : Directive) : Except DirectiveFault Value :=
  match load directive.body with
  | .error fault => .error (.unreadable fault)
  | .ok .null => .error (.noBody directive.kind)
  | .ok value => .ok value

/-- The fault of a body that is refused. -/
def DirectiveFault.ofRefusal : Refusal → DirectiveFault
  | .misfits found => .misfits found
  | .numberTooLong => .numberTooLong

/-- A value, read by a codec. -/
def decodeValue {α : Type} (codec : Codec α) (value : Value) : Except DirectiveFault α :=
  (codec.decode value).mapError DirectiveFault.ofRefusal

/-- The body of a directive, read by a codec. -/
def decodeAs {α : Type} (codec : Codec α) (directive : Directive) : Except DirectiveFault α := do
  decodeValue codec (← decodeBody directive)

/-- The parameter that a directive describes. Its name is that of the literal unless the body
gives one. -/
def decodeParameter (directive : Directive) : Except DirectiveFault Parameter := do
  match (← decodeBody directive).entries? with
  | some entries =>
    let name := match directive.parameterName with
      | some name => Value.str name
      | none => .null
    decodeValue (Parameter.codec stepLimit)
      (.map (Value.entriesOf ((.str "name", name) :: entries)))
  | none => throw .notMapping

/-- A document after a directive: what was reported, and the fault if it failed. -/
structure Applied where
  document : Document
  log : List Event := []
  fault : Option DirectiveFault := none

/-- The document with a table of schemas. -/
def withSchemas (document : Document) (schemas : Table Schema) : Document :=
  { document with components := { document.components with schemas := some schemas } }

/-- The document with a table of parameters. -/
def withParameters (document : Document) (parameters : Table Parameter) : Document :=
  { document with components := { document.components with parameters := some parameters } }

/-- The document with the schema of the declared type. -/
def applySchema (document : Document) (declaration : Declaration) : Applied :=
  let schemas := document.components.schemas.getD []
  let prepared := withSchemas document schemas
  match declaration with
  | .type declaration =>
    let derived := schemaOfDeclaration declaration
    match derived.result with
    | .error fault => ⟨prepared, derived.log, some (.badTag fault)⟩
    | .ok schema =>
      ⟨withSchemas document (schemas.put (.plain (lowerFirst declaration.name)) schema),
        derived.log, none⟩
  | _ => ⟨prepared, [], some .notType⟩

/-- The document with what a directive describes; the result of reading it decides. -/
def updated {α : Type} (document : Document) (read : Except DirectiveFault α)
    (update : α → Document) : Applied :=
  match read with
  | .error fault => ⟨document, [], some fault⟩
  | .ok part => ⟨update part, [], none⟩

/-- Applies a directive to a document. -/
def applyDirective (document : Document) (directive : Directive) : Applied :=
  let applied := match directive.kind with
    | .info =>
      updated document (decodeAs Info.codec directive) fun info =>
        { document with info := some info }
    | .path => updated document (decodeAs pathsCodec directive) document.mergePaths
    | .parameter =>
      updated document (decodeParameter directive) fun parameter =>
        withParameters document
          ((document.components.parameters.getD []).put
            (.plain (directive.name.getD "None")) parameter)
    | .objectSchema => applySchema document directive.declaration
  { applied with log := .applying directive.kind directive.declaration.line :: applied.log }

/-! ### Whole sources -/

/-- Why declarations cannot be added. -/
inductive AssemblyFault
  /-- A value marked as a parameter gives none. -/
  | parameter (fault : ParameterFault)
  /-- A directive cannot be applied. -/
  | directive (directive : Directive) (fault : DirectiveFault)
  deriving DecidableEq, Repr

/-- A document after declarations: what was reported, and the fault at which it stopped. -/
structure Assembled where
  document : Document
  log : List Event := []
  fault : Option AssemblyFault := none

/-- Adds the directives of declarations one after the other, up to the first fault. -/
def addDeclarations (document : Document) : List Declaration → Assembled
  | [] => ⟨document, [], none⟩
  | declaration :: rest =>
    match extractDirective declaration with
    | .error fault => ⟨document, [], some (.parameter fault)⟩
    | .ok none => addDeclarations document rest
    | .ok (some directive) =>
      let applied := applyDirective document directive
      match applied.fault with
      | some fault => ⟨applied.document, applied.log, some (.directive directive fault)⟩
      | none =>
        let others := addDeclarations applied.document rest
        { others with log := applied.log ++ others.log }

end GoApiDoc
