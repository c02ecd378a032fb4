/-
This file holds what requests and responses carry: examples, headers, media types with their
encodings, parameters, bodies, links and responses. Headers, media types and encodings hold
one another, as deep as there is room, so their codecs are built in layers as those of schemas
are. Where a codec takes room, it is the room for what lies within the part.
-/

import GoApiDoc.Document.Schema

namespace GoApiDoc.Document

open Yaml

/-! ### Servers and examples -/

/-- A variable in the address of a server. -/
structure ServerVariable where
  enum : Option (List Text) := none
  default : Text := .plain ""
  description : Option Text := none
  deriving Repr

/-- How a server variable is read and written. -/
def ServerVariable.codec : Codec ServerVariable :=
  Codec.record <| ServerVariable.mk
    <$> Fields.optional "enum" (Codec.list Codec.text) ServerVariable.enum
    <*> Fields.defaulted "default" Codec.text (.plain "") ServerVariable.default
    <*> Fields.optional "description" Codec.text ServerVariable.description

/-- A server. -/
structure Server where
  url : Text := .plain ""
  description : Option Text := none
  placeholders : Option (Table ServerVariable) := none
  deriving Repr

/-- How a server is read and written. -/
def Server.codec : Codec Server :=
  Codec.record <| Server.mk
    <$> Fields.defaulted "url" Codec.text (.plain "") Server.url
    <*> Fields.optional "description" Codec.text Server.description
    <*> Fields.optional "variables" (Codec.table ServerVariable.codec) Server.placeholders

/-- An example. -/
structure Example where
  summary : Option Text := none
  description : Option Text := none
  value : Option Value := none
  externalValue : Option Text := none
  deriving Repr

/-- How an example is read and written. -/
def Example.codec (room : Nat) : Codec Example :=
  Codec.record <| Example.mk
    <$> Fields.optional "summary" Codec.text Example.summary
    <*> Fields.optional "description" Codec.text Example.description
    <*> Fields.optional "value" (Codec.anything room) Example.value
    <*> Fields.optional ⟨"externalValue", "external_value"⟩ Codec.text Example.externalValue

/-- How tables of examples are read and written, to each of which one step leads. -/
def examplesCodec (room : Nat) : Codec (Table Example) :=
  Codec.table (Codec.after 1 room Example.codec)

/-! ### Headers, encodings and media types -/

mutual

/-- A header. -/
structure Header where
  description : Option Text := none
  required : Bool := false
  deprecated : Option Bool := none
  allowEmptyValue : Option Bool := none
  style : Option Text := none
  explode : Option Bool := none
  allowReserved : Option Bool := none
  schema : Option Schema := none
  sample : Option Value := none
  examples : Option (List (Text × Example)) := none
  content : Option (List (Text × MediaType)) := none

/-- How a property of a body is encoded. -/
structure Encoding where
  contentType : Option Text := none
  headers : Option (List (Text × Header)) := none
  style : Option Text := none
  explode : Option Bool := none
  allowReserved : Option Bool := none

/-- A body of one media type. -/
structure MediaType where
  schema : Option Schema := none
  sample : Option Value := none
  examples : Option (List (Text × Example)) := none
  encoding : Option (List (Text × Encoding)) := none

end

/-- How a header is read and written, given a codec for the media types inside. -/
def Header.layer (room : Nat) (inner : Codec MediaType) : Codec Header :=
  Codec.record <| Header.mk
    <$> Fields.optional "description" Codec.text Header.description
    <*> Fields.defaulted "required" Codec.bool false Header.required
    <*> Fields.optional "deprecated" Codec.bool Header.deprecated
    <*> Fields.optional ⟨"allowEmptyValue", "allow_empty_value"⟩ Codec.bool Header.allowEmptyValue
    <*> Fields.optional "style" Codec.text Header.style
    <*> Fields.optional "explode" Codec.bool Header.explode
    <*> Fields.optional ⟨"allowReserved", "allow_reserved"⟩ Codec.bool Header.allowReserved
    <*> Fields.optional ⟨"schema", "schema_"⟩ (Schema.codec room .alone) Header.schema
    <*> Fields.optional "example" (Codec.anything room) Header.sample
    <*> Fields.optional "examples" (examplesCodec room) Header.examples
    <*> Fields.optional "content" (Codec.table inner) Header.content

/-- How an encoding is read and written, given a codec for the headers inside. -/
def Encoding.layer (inner : Codec Header) : Codec Encoding :=
  Codec.record <| Encoding.mk
    <$> Fields.optional ⟨"contentType", "content_type"⟩ Codec.text Encoding.contentType
    <*> Fields.optional "headers" (Codec.table inner) Encoding.headers
    <*> Fields.optional "style" Codec.text Encoding.style
    <*> Fields.optional "explode" Codec.bool Encoding.explode
    <*> Fields.optional ⟨"allowReserved", "allow_reserved"⟩ Codec.bool Encoding.allowReserved

/-- How a media type is read and written, given a codec for the encodings inside. -/
def MediaType.layer (room : Nat) (inner : Codec Encoding) : Codec MediaType :=
  Codec.record <| MediaType.mk
    <$> Fields.optional ⟨"schema", "schema_"⟩ (Schema.codec room .alone) MediaType.schema
    <*> Fields.optional "example" (Codec.anything room) MediaType.sample
    <*> Fields.optional "examples" (examplesCodec room) MediaType.examples
    <*> Fields.optional "encoding" (Codec.table inner) MediaType.encoding

/-- How media types are read and written. One step leads to a media type in a header of an
encoding. -/
def MediaType.codec : Nat → Codec MediaType
  | 0 => MediaType.layer 0 (Encoding.layer (Header.layer 0 Codec.full))
  | room + 1 =>
    MediaType.layer (room + 1)
      (Encoding.layer (Header.layer (room + 1) (Codec.later fun _ => codec room)))

/-- How tables of media types are read and written, to each of which two steps lead. -/
def contentCodec (room : Nat) : Codec (Table MediaType) :=
  Codec.table (Codec.after 2 room MediaType.codec)

/-- How headers are read and written. -/
def Header.codec (room : Nat) : Codec Header :=
  Header.layer room (Codec.after 2 room MediaType.codec)

/-- How encodings are read and written. -/
def Encoding.codec (room : Nat) : Codec Encoding :=
  Encoding.layer (Header.codec room)

/-! ### Parameters, bodies, links and responses -/

/-- A parameter in a path, a query, a header or a cookie. -/
structure Parameter where
  name : Text := .plain ""
  location : Text := .plain ""
  description : Option Text := none
  required : Bool := false
  deprecated : Option Bool := none
  allowEmptyValue : Option Bool := none
  style : Option Text := none
  explode : Option Bool := none
  allowReserved : Option Bool := none
  schema : Option Schema := none
  sample : Option Value := none
  examples : Option (Table Example) := none
  content : Option (Table MediaType) := none

/-- How a parameter is read and written. -/
def Parameter.codec (room : Nat) : Codec Parameter :=
  Codec.record <| Parameter.mk
    <$> Fields.defaulted "name" Codec.text (.plain "") Parameter.name
    <*> Fields.defaulted ⟨"in", "location"⟩ Codec.text (.plain "") Parameter.location
    <*> Fields.optional "description" Codec.text Parameter.description
    <*> Fields.defaulted "required" Codec.bool false Parameter.required
    <*> Fields.optional "deprecated" Codec.bool Parameter.deprecated
    <*> Fields.optional ⟨"allowEmptyValue", "allow_empty_value"⟩ Codec.bool
      Parameter.allowEmptyValue
    <*> Fields.optional "style" Codec.text Parameter.style
    <*> Fields.optional "explode" Codec.bool Parameter.explode
    <*> Fields.optional ⟨"allowReserved", "allow_reserved"⟩ Codec.bool Parameter.allowReserved
    <*> Fields.optional ⟨"schema", "schema_"⟩ (Schema.codec room .alone) Parameter.schema
    <*> Fields.optional "example" (Codec.anything room) Parameter.sample
    <*> Fields.optional "examples" (examplesCodec room) Parameter.examples
    <*> Fields.optional "content" (contentCodec room) Parameter.content

/-- What tells the parameters of one path apart: name and location. -/
def Parameter.key (parameter : Parameter) : Text × Text :=
  (parameter.name, parameter.location)

/-- The body of a request. -/
structure RequestBody where
  description : Option Text := none
  content : Table MediaType := []
  required : Option Bool := none

/-- How the body of a request is read and written. -/
def RequestBody.codec (room : Nat) : Codec RequestBody :=
  Codec.record <| RequestBody.mk
    <$> Fields.optional "description" Codec.text RequestBody.description
    <*> Fields.defaulted "content" (contentCodec room) [] RequestBody.content
    <*> Fields.optional "required" Codec.bool RequestBody.required

/-- A link from a response to another operation. -/
structure Link where
  operationRef : Option Text := none
  operationId : Option Text := none
  parameters : Option (Table Value) := none
  requestBody : Option Value := none
  description : Option Text := none
  server : Option Server := none

/-- How a link is read and written. -/
def Link.codec (room : Nat) : Codec Link :=
  Codec.record <| Link.mk
    <$> Fields.optional ⟨"operationRef", "operation_ref"⟩ Codec.text Link.operationRef
    <*> Fields.optional ⟨"operationId", "operation_id"⟩ Codec.text Link.operationId
    <*> Fields.optional "parameters" (Codec.table (Codec.anything room)) Link.parameters
    <*> Fields.optional ⟨"requestBody", "request_body"⟩ (Codec.anything room) Link.requestBody
    <*> Fields.optional "description" Codec.text Link.description
    <*> Fields.optional "server" Server.codec Link.server

/-- A response. -/
structure Response where
  ref : Option Text := none
  description : Option Text := none
  headers : Option (Table Header) := none
  content : Option (Table MediaType) := none
  links : Option (Table Link) := none

/-- How a response is read and written. -/
def Response.codec (room : Nat) : Codec Response :=
  Codec.record <| Response.mk
    <$> Fields.optional ⟨"$ref", "ref"⟩ Codec.text Response.ref
    <*> Fields.optional "description" Codec.text Response.description
    <*> Fields.optional "headers" (Codec.table (Header.codec room)) Response.headers
    <*> Fields.optional "content" (contentCodec room) Response.content
    <*> Fields.optional "links" (Codec.table (Link.codec room)) Response.links

end GoApiDoc.Document
