/-
This file holds schemas. A schema is a reference to a named one, or one of three descriptions
that share their annotations: of an object, of an array, or of a primitive value. Which of
the four a mapping describes is told by its keys, before anything in it is read.

Schemas hold schemas, as deep as there is room. The codec of one layer is built from a codec
of what lies below, down to where no room is left.
-/

import GoApiDoc.Document.Freeform

namespace GoApiDoc.Document

open Yaml

/-! ### Small parts -/

/-- A link to more documentation. -/
structure ExternalDocs where
  url : Text := .plain ""
  description : Option Text := none
  deriving Repr

/-- How external documentation is read and written. -/
def ExternalDocs.codec : Codec ExternalDocs :=
  Codec.record <| ExternalDocs.mk
    <$> Fields.defaulted "url" Codec.text (.plain "") ExternalDocs.url
    <*> Fields.optional "description" Codec.text ExternalDocs.description

/-- How a value is represented in XML. -/
structure Xml where
  name : Option Text := none
  uri : Option Text := none
  shorthand : Option Text := none
  isAttribute : Option Bool := none
  wrapped : Option Bool := none
  deriving Repr

/-- How the representation in XML is read and written. -/
def Xml.codec : Codec Xml :=
  Codec.record <| Xml.mk
    <$> Fields.optional "name" Codec.text Xml.name
    <*> Fields.optional "namespace" Codec.text Xml.uri
    <*> Fields.optional "prefix" Codec.text Xml.shorthand
    <*> Fields.optional "attribute" Codec.bool Xml.isAttribute
    <*> Fields.optional "wrapped" Codec.bool Xml.wrapped

/-- The property by which alternatives are told apart. -/
structure Discriminator where
  propertyName : Text := .plain ""
  mapping : Option (Table Text) := none
  deriving Repr

/-- How a discriminator is read and written. -/
def Discriminator.codec : Codec Discriminator :=
  Codec.record <| Discriminator.mk
    <$> Fields.defaulted ⟨"propertyName", "property_name"⟩ Codec.text (.plain "")
      Discriminator.propertyName
    <*> Fields.optional "mapping" (Codec.table Codec.text) Discriminator.mapping

/-! ### Schemas -/

/-- What every schema but a reference may say about itself; `σ` is the type of schemas. -/
structure Annotations (σ : Type) where
  title : Option Text := none
  description : Option Text := none
  nullable : Option Bool := none
  readOnly : Option Bool := none
  writeOnly : Option Bool := none
  deprecated : Option Bool := none
  sample : Option Value := none
  default : Option Value := none
  enum : Option (List Value) := none
  discriminator : Option Discriminator := none
  xml : Option Xml := none
  externalDocs : Option ExternalDocs := none
  allOf : Option (List σ) := none
  oneOf : Option (List σ) := none
  anyOf : Option (List σ) := none
  negation : Option σ := none
  deriving Repr

/-- What further properties of an object are: of a schema, or allowed or not. -/
inductive Additional (σ : Type)
  | described (schema : σ)
  | allowed (value : Bool)
  deriving Repr

/-- The description of a primitive value. -/
structure PrimitiveShape (σ : Type) where
  annotations : Annotations σ := {}
  type : Option Text := none
  format : Option Text := none
  deriving Repr

/-- The description of an object. -/
structure ObjectShape (σ : Type) where
  annotations : Annotations σ := {}
  properties : Option (List (Text × σ)) := none
  additional : Option (Additional σ) := none
  required : Option (List Text) := none
  deriving Repr

/-- The description of an array. -/
structure ArrayShape (σ : Type) where
  annotations : Annotations σ := {}
  items : σ
  deriving Repr

/-- A schema. -/
inductive Schema
  | ref (target : Text)
  | object (shape : ObjectShape Schema)
  | array (shape : ArrayShape Schema)
  | primitive (shape : PrimitiveShape Schema)
  deriving Repr

/-- The variants of schemas. -/
inductive SchemaKind
  | ref
  | object
  | array
  | primitive
  deriving DecidableEq, Repr

/-- The word for a variant. -/
def SchemaKind.word : SchemaKind → String
  | .ref => "ref"
  | .object => "object"
  | .array => "array"
  | .primitive => "primitive"

/-- The variant of a schema. -/
def Schema.kind : Schema → SchemaKind
  | .ref _ => .ref
  | .object _ => .object
  | .array _ => .array
  | .primitive _ => .primitive

/-- Whether the type that entries declare is the word. -/
def declaresType (word : String) (entries : List (Value × Value)) : Bool :=
  match Value.get? "type" entries with
  | some (.str text) => text == .plain word
  | _ => false

/-- The variant that a value describes: a reference if it has a key for one, else what its
type says, else an object if it has a key of objects. -/
def kindOf : Value → SchemaKind
  | .map entries =>
    let has (name : String) : Bool := (Value.get? name entries).isSome
    if has "$ref" || has "ref" then .ref
    else if declaresType "array" entries then .array
    else if declaresType "object" entries || has "properties" || has "additionalProperties" then
      .object
    else .primitive
  | _ => .primitive

/-! ### Room -/

/-- Where a schema stands: by itself, or in the surroundings of a description of one kind. -/
inductive Standing
  | alone
  | inArray
  | inObject
  | inPrimitive
  deriving DecidableEq, Repr

namespace Standing

/-- The surroundings that a description of a kind makes. A reference makes none. -/
def within : SchemaKind → Standing
  | .ref => .alone
  | .object => .inObject
  | .array => .inArray
  | .primitive => .inPrimitive

/-- Whether surroundings cover a kind. References are covered everywhere; the surroundings of
an array cover arrays, those of an object also objects, and those of a primitive value
everything. -/
def covers : Standing → SchemaKind → Bool
  | _, .ref => true
  | .alone, _ => false
  | .inArray, kind => kind = .array
  | .inObject, kind => kind = .array || kind = .object
  | .inPrimitive, _ => true

end Standing

/-! ### Codecs -/

section Layer

variable {σ : Type} (room : Nat) (inner : Codec σ)

/-- The fields of annotations. -/
def Annotations.fields : Fields (Annotations σ) (Annotations σ) :=
  Annotations.mk
    <$> Fields.optional "title" Codec.text Annotations.title
    <*> Fields.optional "description" Codec.text Annotations.description
    <*> Fields.optional "nullable" Codec.bool Annotations.nullable
    <*> Fields.optional ⟨"readOnly", "read_only"⟩ Codec.bool Annotations.readOnly
    <*> Fields.optional ⟨"writeOnly", "write_only"⟩ Codec.bool Annotations.writeOnly
    <*> Fields.optional "deprecated" Codec.bool Annotations.deprecated
    <*> Fields.optional "example" (Codec.anything room) Annotations.sample
    <*> Fields.optional "default" (Codec.anything room) Annotations.default
    <*> Fields.optional "enum" (Codec.list (Codec.anything room)) Annotations.enum
    <*> Fields.optional "discriminator" (Codec.inner room Discriminator.codec)
      Annotations.discriminator
    <*> Fields.optional "xml" (Codec.inner room Xml.codec) Annotations.xml
    <*> Fields.optional ⟨"externalDocs", "external_docs"⟩ (Codec.inner room ExternalDocs.codec)
      Annotations.externalDocs
    <*> Fields.optional ⟨"allOf", "all_of"⟩ (Codec.list inner) Annotations.allOf
    <*> Fields.optional ⟨"oneOf", "one_of"⟩ (Codec.list inner) Annotations.oneOf
    <*> Fields.optional ⟨"anyOf", "any_of"⟩ (Codec.list inner) Annotations.anyOf
    <*> Fields.optional ⟨"not", "not_"⟩ inner Annotations.negation

/-- How the description of a primitive value is read and written. -/
def PrimitiveShape.codec : Codec (PrimitiveShape σ) :=
  Codec.record <| PrimitiveShape.mk
    <$> (Annotations.fields room inner).part PrimitiveShape.annotations
    <*> Fields.optional "type" Codec.text PrimitiveShape.type
    <*> Fields.optional "format" Codec.text PrimitiveShape.format

/-- How further properties are read and written: as a schema if they are one, else as a truth
value; where neither fits, the misfits of both are reported. -/
def Additional.codec (inner : Codec σ) : Codec (Additional σ) where
  decode value :=
    match inner.decode value with
    | .ok schema => .ok (.described schema)
    | .error noSchema =>
      match Codec.bool.decode value with
      | .ok value => .ok (.allowed value)
      | .error noBool =>
        .error ((noSchema.under (.name "schema")).and (noBool.under (.name "bool")))
  encode
    | .described schema => inner.encode schema
    | .allowed value => .ok (.bool value)

/-- How the description of an object is read and written; its type is fixed. -/
def ObjectShape.codec : Codec (ObjectShape σ) :=
  Codec.record <| (fun annotations _ properties additional required =>
      ObjectShape.mk annotations properties additional required)
    <$> (Annotations.fields room inner).part ObjectShape.annotations
    <*> Fields.defaulted "type" (Codec.literal "object") () (fun _ => ())
    <*> Fields.optional "properties" (Codec.table inner) ObjectShape.properties
    <*> Fields.optional ⟨"additionalProperties", "additional_properties"⟩ (Additional.codec inner)
      ObjectShape.additional
    <*> Fields.optional "required" (Codec.list Codec.text) ObjectShape.required

/-- How the description of an array is read and written; its type is fixed. -/
def ArrayShape.codec : Codec (ArrayShape σ) :=
  Codec.record <| (fun annotations _ items => ArrayShape.mk annotations items)
    <$> (Annotations.fields room inner).part ArrayShape.annotations
    <*> Fields.defaulted "type" (Codec.literal "array") () (fun _ => ())
    <*> Fields.required "items" inner ArrayShape.items

end Layer

/-- How a reference is read and written. -/
def refCodec : Codec Text :=
  Codec.record (Fields.required ⟨"$ref", "ref"⟩ Codec.text id)

/-- How a schema is read and written, given for each kind the room and the codec of schemas
inside it, or nothing where there is no room for that kind. Misfits lie under the word for the
kind. -/
def Schema.layer (below : SchemaKind → Option (Nat × Codec Schema)) : Codec Schema where
  decode value :=
    let kind := kindOf value
    Decoded.under (.name kind.word) <|
      match kind, below kind with
      | _, none => misfit .tooDeep
      | .ref, some _ => (refCodec.decode value).map .ref
      | .object, some (room, inner) => ((ObjectShape.codec room inner).decode value).map .object
      | .array, some (room, inner) => ((ArrayShape.codec room inner).decode value).map .array
      | .primitive, some (room, inner) =>
        ((PrimitiveShape.codec room inner).decode value).map .primitive
  encode schema :=
    match schema, below schema.kind with
    | _, none => .error .tooDeep
    | .ref target, some _ => refCodec.encode target
    | .object shape, some (room, inner) => (ObjectShape.codec room inner).encode shape
    | .array shape, some (room, inner) => (ArrayShape.codec room inner).encode shape
    | .primitive shape, some (room, inner) => (PrimitiveShape.codec room inner).encode shape

/-- How a schema is read and written, given the room for it and where it stands. One step
leads to a schema of a kind that its surroundings cover, and these go on inside it; two steps
lead to any other, which makes surroundings of its own. -/
def Schema.codec : Nat → Standing → Codec Schema
  | 0, _ => Schema.layer fun _ => none
  | room + 1, standing =>
    Schema.layer fun kind =>
      if standing.covers kind then some (room, codec room standing)
      else
        match room with
        | 0 => none
        | room + 1 => some (room, codec room (.within kind))

/-- The codec of a description that is the root of what is read or written: one step leads
to it, and it makes the surroundings of its kind. -/
def Schema.rootCodec {α : Type} (kind : SchemaKind) (shape : Nat → Codec Schema → Codec α) :
    Codec α :=
  Codec.after 1 stepLimit fun room => shape room (Schema.codec room (.within kind))

/-- How a schema is read and written that is no part of anything. When it is written it is the
root. -/
def Schema.aloneCodec : Codec Schema where
  decode := (Schema.codec stepLimit .alone).decode
  encode
    | .ref target => refCodec.encode target
    | .object shape => (rootCodec .object ObjectShape.codec).encode shape
    | .array shape => (rootCodec .array ArrayShape.codec).encode shape
    | .primitive shape => (rootCodec .primitive PrimitiveShape.codec).encode shape

/-- The reference to the component schema of a name. -/
def Schema.refTo (name : String) : Schema :=
  .ref (.plain ("#/components/schemas/" ++ name))

end GoApiDoc.Document
