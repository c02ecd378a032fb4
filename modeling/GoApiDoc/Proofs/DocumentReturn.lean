/-
This file says how documents come back. For each part of a document there is what makes it proper
and as what it comes back: free data come back as the plain data that they are written as, and
everything else as it is, but for the surrogates in the names of tables. A part is proper if its
free data are clean and its schemas are proper.

Parts that hold one another are followed down to a depth, as schemas are. A document is followed as
deep as there is room in it.
-/

import GoApiDoc.Document.Basic
import GoApiDoc.Proofs.SchemaReturn

namespace GoApiDoc.Document

open Yaml

/-! ### Servers and examples -/

theorem ServerVariable.sound : ServerVariable.codec.Sound .exact :=
  Codec.sound_record
    (Fields.Sound.map .exact (.optionalExact Codec.text_sound.exactList) (by intros; trivial)
      |>.seq (.defaultedExact Codec.text_sound)
      |>.seq (.optionalExact Codec.text_sound))
    (by decide) fun _ => rfl

/-- Servers. -/
def Server.form : Form Server :=
  .total fun server =>
    { server with placeholders := server.placeholders.map Form.exact.table.plain }

/-- The placeholders of a server are a table, so their names may change. -/
theorem Server.sound : Server.codec.Sound Server.form :=
  Codec.sound_record
    (Fields.Sound.map Server.form (.defaultedExact Codec.text_sound) (by intros; trivial)
      |>.seq (.optionalExact Codec.text_sound)
      |>.seq (.optional ServerVariable.sound.table fun _ _ _ _ _ _ => trivial))
    (by decide) fun _ => rfl

/-- Examples. -/
def Example.form : Form Example where
  proper sample := ∀ value ∈ sample.value, Form.freeField.proper value
  plain sample := { sample with value := sample.value.map plainValue }

/-- The value of an example is free data. -/
theorem Example.sound {room : Nat} (le : room ≤ stepLimit) :
    (Example.codec room).Sound Example.form :=
  Codec.sound_record
    (Fields.Sound.map Example.form (.optionalExact Codec.text_sound)
        (fun _ _ _ _ _ proper _ _ => proper)
      |>.seq (.optionalExact Codec.text_sound)
      |>.seq (.free le fun _ proper => proper)
      |>.seq (.optionalExact Codec.text_sound))
    (by decide) fun _ => rfl

theorem examples_sound {room : Nat} (le : room ≤ stepLimit) :
    (examplesCodec room).Sound Example.form.table :=
  (Codec.Sound.after fun _ => Example.sound (by omega)).table

/-! ### Headers, encodings and media types -/

/-- Schemas inside a document. -/
def Schema.inner : Form Schema :=
  Schema.form stepLimit

/-- Wherever a schema stands in a document, it is followed as deep as the document may be. -/
theorem Schema.inner_sound {room : Nat} (le : room ≤ stepLimit) :
    (Schema.codec room .alone).Sound Schema.inner :=
  Schema.sound le (Nat.le_refl _) .alone

/-- What a header holds comes back. -/
structure Header.Proper (inner : Form MediaType) (header : Header) : Prop where
  schema : ∀ schema ∈ header.schema, Schema.inner.proper schema
  sample : ∀ value ∈ header.sample, Form.freeField.proper value
  examples : ∀ examples ∈ header.examples, Example.form.table.proper examples
  content : ∀ content ∈ header.content, inner.table.proper content

/-- Headers over media types of a form. -/
def Header.layerForm (inner : Form MediaType) : Form Header where
  proper := Header.Proper inner
  plain header := { header with
    schema := header.schema.map Schema.inner.plain
    sample := header.sample.map plainValue
    examples := header.examples.map Example.form.table.plain
    content := header.content.map inner.table.plain }

/-- Headers come back if the bodies do that they hold. -/
theorem Header.sound_layer {room : Nat} {inner : Codec MediaType} {form : Form MediaType}
    (le : room ≤ stepLimit) (sound : inner.Sound form) :
    (Header.layer room inner).Sound (Header.layerForm form) :=
  Codec.sound_record
    (Fields.Sound.map (Header.layerForm form) (.optionalExact Codec.text_sound)
        (by intros; constructor <;> assumption)
      |>.seq (.defaultedExact Codec.bool_sound)
      |>.seq (.optionalExact Codec.bool_sound)
      |>.seq (.optionalExact Codec.bool_sound)
      |>.seq (.optionalExact Codec.text_sound)
      |>.seq (.optionalExact Codec.bool_sound)
      |>.seq (.optionalExact Codec.bool_sound)
      |>.seq (.optional (Schema.inner_sound le) fun _ proper => proper.schema)
      |>.seq (.free le fun _ proper => proper.sample)
      |>.seq (.optional (examples_sound le) fun _ proper => proper.examples)
      |>.seq (.optional sound.table fun _ proper => proper.content))
    (by decide) fun _ => rfl

/-- Encodings over headers of a form. -/
def Encoding.layerForm (inner : Form Header) : Form Encoding where
  proper encoding := ∀ headers ∈ encoding.headers, inner.table.proper headers
  plain encoding := { encoding with headers := encoding.headers.map inner.table.plain }

/-- Encodings come back if their headers do. -/
theorem Encoding.sound_layer {inner : Codec Header} {form : Form Header}
    (sound : inner.Sound form) : (Encoding.layer inner).Sound (Encoding.layerForm form) :=
  Codec.sound_record
    (Fields.Sound.map (Encoding.layerForm form) (.optionalExact Codec.text_sound)
        (fun _ _ _ proper _ _ _ _ _ _ => proper)
      |>.seq (.optional sound.table fun _ proper => proper)
      |>.seq (.optionalExact Codec.text_sound)
      |>.seq (.optionalExact Codec.bool_sound)
      |>.seq (.optionalExact Codec.bool_sound))
    (by decide) fun _ => rfl

/-- What a body of one media type holds comes back. -/
structure MediaType.Proper (inner : Form Encoding) (media : MediaType) : Prop where
  schema : ∀ schema ∈ media.schema, Schema.inner.proper schema
  sample : ∀ value ∈ media.sample, Form.freeField.proper value
  examples : ∀ examples ∈ media.examples, Example.form.table.proper examples
  encoding : ∀ encoding ∈ media.encoding, inner.table.proper encoding

/-- Media types over encodings of a form. -/
def MediaType.layerForm (inner : Form Encoding) : Form MediaType where
  proper := MediaType.Proper inner
  plain media := { media with
    schema := media.schema.map Schema.inner.plain
    sample := media.sample.map plainValue
    examples := media.examples.map Example.form.table.plain
    encoding := media.encoding.map inner.table.plain }

/-- Bodies of one media type come back if their encodings do. -/
theorem MediaType.sound_layer {room : Nat} {inner : Codec Encoding} {form : Form Encoding}
    (le : room ≤ stepLimit) (sound : inner.Sound form) :
    (MediaType.layer room inner).Sound (MediaType.layerForm form) :=
  Codec.sound_record
    (Fields.Sound.map (MediaType.layerForm form)
        (.optional (Schema.inner_sound le) fun _ proper => proper.schema)
        (by intros; constructor <;> assumption)
      |>.seq (.free le fun _ proper => proper.sample)
      |>.seq (.optional (examples_sound le) fun _ proper => proper.examples)
      |>.seq (.optional sound.table fun _ proper => proper.encoding))
    (by decide) fun _ => rfl

/-- Media types, followed down to a depth. -/
def MediaType.form : Nat → Form MediaType
  | 0 => MediaType.layerForm (Encoding.layerForm (Header.layerForm .exact))
  | depth + 1 => MediaType.layerForm (Encoding.layerForm (Header.layerForm (form depth)))

/-- Bodies come back, however many of them hold one another. -/
theorem MediaType.sound {depth room : Nat} (le : room ≤ depth) (within : depth ≤ stepLimit) :
    (MediaType.codec room).Sound (MediaType.form depth) := by
  have layers : ∀ {room inner form}, room ≤ stepLimit → Codec.Sound inner form →
      (MediaType.layer room (Encoding.layer (Header.layer room inner))).Sound
        (MediaType.layerForm (Encoding.layerForm (Header.layerForm form))) := fun le sound =>
    MediaType.sound_layer le (Encoding.sound_layer (Header.sound_layer le sound))
  induction depth generalizing room with
  | zero =>
    obtain rfl := Nat.le_zero.mp le
    exact layers within (Codec.full_sound _)
  | succ depth inductionHypothesis =>
    cases room with
    | zero => exact layers (Nat.zero_le _) (Codec.full_sound _)
    | succ room =>
      rw [MediaType.codec]
      refine layers (by omega) (Codec.Sound.later ?_)
      exact inductionHypothesis (by omega) (by omega)

/-- Media types inside a document. -/
def MediaType.inner : Form MediaType :=
  MediaType.form stepLimit

theorem MediaType.after_sound {room : Nat} (le : room ≤ stepLimit) :
    (Codec.after 2 room MediaType.codec).Sound MediaType.inner :=
  Codec.Sound.after fun _ => MediaType.sound (by omega) (Nat.le_refl _)

theorem content_sound {room : Nat} (le : room ≤ stepLimit) :
    (contentCodec room).Sound MediaType.inner.table :=
  (MediaType.after_sound le).table

/-- Headers. -/
def Header.form : Form Header :=
  Header.layerForm MediaType.inner

theorem Header.sound {room : Nat} (le : room ≤ stepLimit) :
    (Header.codec room).Sound Header.form :=
  Header.sound_layer le (MediaType.after_sound le)

/-! ### Parameters, bodies, links and responses -/

/-- What a parameter holds comes back. -/
structure Parameter.Proper (parameter : Parameter) : Prop where
  schema : ∀ schema ∈ parameter.schema, Schema.inner.proper schema
  sample : ∀ value ∈ parameter.sample, Form.freeField.proper value
  examples : ∀ examples ∈ parameter.examples, Example.form.table.proper examples
  content : ∀ content ∈ parameter.content, MediaType.inner.table.proper content

/-- Parameters. -/
def Parameter.form : Form Parameter where
  proper := Parameter.Proper
  plain parameter := { parameter with
    schema := parameter.schema.map Schema.inner.plain
    sample := parameter.sample.map plainValue
    examples := parameter.examples.map Example.form.table.plain
    content := parameter.content.map MediaType.inner.table.plain }

/-- Parameters hold free data, schemas and bodies. -/
theorem Parameter.sound {room : Nat} (le : room ≤ stepLimit) :
    (Parameter.codec room).Sound Parameter.form :=
  Codec.sound_record
    (Fields.Sound.map Parameter.form (.defaultedExact Codec.text_sound)
        (by intros; constructor <;> assumption)
      |>.seq (.defaultedExact Codec.text_sound)
      |>.seq (.optionalExact Codec.text_sound)
      |>.seq (.defaultedExact Codec.bool_sound)
      |>.seq (.optionalExact Codec.bool_sound)
      |>.seq (.optionalExact Codec.bool_sound)
      |>.seq (.optionalExact Codec.text_sound)
      |>.seq (.optionalExact Codec.bool_sound)
      |>.seq (.optionalExact Codec.bool_sound)
      |>.seq (.optional (Schema.inner_sound le) fun _ proper => proper.schema)
      |>.seq (.free le fun _ proper => proper.sample)
      |>.seq (.optional (examples_sound le) fun _ proper => proper.examples)
      |>.seq (.optional (content_sound le) fun _ proper => proper.content))
    (by decide) fun _ => rfl

theorem Parameter.after_sound {room : Nat} (le : room ≤ stepLimit) :
    (Codec.after 1 room Parameter.codec).Sound Parameter.form :=
  Codec.Sound.after fun _ => Parameter.sound (by omega)

/-- Bodies of requests. -/
def RequestBody.form : Form RequestBody where
  proper body := MediaType.inner.table.proper body.content
  plain body := { body with content := MediaType.inner.table.plain body.content }

/-- A table without entries is proper. -/
theorem Form.table_nil {Item : Type} (item : Form Item) : item.table.proper [] :=
  nofun

/-- A body that a request has not described is an empty table, which comes back. -/
theorem RequestBody.sound {room : Nat} (le : room ≤ stepLimit) :
    (RequestBody.codec room).Sound RequestBody.form :=
  Codec.sound_record
    (Fields.Sound.map RequestBody.form (.optionalExact Codec.text_sound)
        (fun _ _ _ proper _ _ => proper)
      |>.seq (.defaulted (content_sound le).toReturns (Form.table_nil _) fun _ proper => proper)
      |>.seq (.optionalExact Codec.bool_sound))
    (by decide) fun _ => rfl

/-- What a link holds comes back. -/
structure Link.Proper (link : Link) : Prop where
  parameters : ∀ parameters ∈ link.parameters, Form.free.table.proper parameters
  requestBody : ∀ value ∈ link.requestBody, Form.freeField.proper value

/-- Links. -/
def Link.form : Form Link where
  proper := Link.Proper
  plain link := { link with
    parameters := link.parameters.map Form.free.table.plain
    requestBody := link.requestBody.map plainValue
    server := link.server.map Server.form.plain }

/-- The parameters and the body of a link are free data. -/
theorem Link.sound {room : Nat} (le : room ≤ stepLimit) : (Link.codec room).Sound Link.form :=
  Codec.sound_record
    (Fields.Sound.map Link.form (.optionalExact Codec.text_sound)
        (by intros; constructor <;> assumption)
      |>.seq (.optionalExact Codec.text_sound)
      |>.seq (.optional (Codec.anything_returns le).table fun _ proper => proper.parameters)
      |>.seq (.free le fun _ proper => proper.requestBody)
      |>.seq (.optionalExact Codec.text_sound)
      |>.seq (.optional Server.sound fun _ _ _ _ => trivial))
    (by decide) fun _ => rfl

/-- What a response holds comes back. -/
structure Response.Proper (response : Response) : Prop where
  headers : ∀ headers ∈ response.headers, Header.form.table.proper headers
  content : ∀ content ∈ response.content, MediaType.inner.table.proper content
  links : ∀ links ∈ response.links, Link.form.table.proper links

/-- Responses. -/
def Response.form : Form Response where
  proper := Response.Proper
  plain response := { response with
    headers := response.headers.map Header.form.table.plain
    content := response.content.map MediaType.inner.table.plain
    links := response.links.map Link.form.table.plain }

theorem Response.sound {room : Nat} (le : room ≤ stepLimit) :
    (Response.codec room).Sound Response.form :=
  Codec.sound_record
    (Fields.Sound.map Response.form (.optionalExact Codec.text_sound)
        (by intros; constructor <;> assumption)
      |>.seq (.optionalExact Codec.text_sound)
      |>.seq (.optional (Header.sound le).table fun _ proper => proper.headers)
      |>.seq (.optional (content_sound le) fun _ proper => proper.content)
      |>.seq (.optional (Link.sound le).table fun _ proper => proper.links))
    (by decide) fun _ => rfl

/-! ### Operations and paths -/

/-- Security requirements. -/
def SecurityRequirement.form : Form SecurityRequirement :=
  Form.exact.table

theorem SecurityRequirement.sound : SecurityRequirement.codec.Sound SecurityRequirement.form :=
  Codec.text_sound.exactList.table

/-- What an operation holds comes back. -/
structure Operation.Proper (inner : Form PathItem) (operation : Operation) : Prop where
  parameters : ∀ parameters ∈ operation.parameters, Parameter.form.list.proper parameters
  requestBody : ∀ body ∈ operation.requestBody, RequestBody.form.proper body
  responses : Response.form.table.proper operation.responses
  callbacks : ∀ callbacks ∈ operation.callbacks, inner.table.table.proper callbacks

/-- Operations over paths of a form. -/
def Operation.layerForm (inner : Form PathItem) : Form Operation where
  proper := Operation.Proper inner
  plain operation := { operation with
    parameters := operation.parameters.map Parameter.form.list.plain
    requestBody := operation.requestBody.map RequestBody.form.plain
    responses := Response.form.table.plain operation.responses
    callbacks := operation.callbacks.map inner.table.table.plain
    security := operation.security.map SecurityRequirement.form.list.plain
    servers := operation.servers.map Server.form.list.plain }

/-- Operations come back if the paths of their callbacks do. -/
theorem Operation.sound_layer {room : Nat} {inner : Codec PathItem} {form : Form PathItem}
    (le : room ≤ stepLimit) (sound : inner.Sound form) :
    (Operation.layer room inner).Sound (Operation.layerForm form) :=
  Codec.sound_record
    (Fields.Sound.map (Operation.layerForm form) (.optionalExact Codec.text_sound.exactList)
        (by intros; constructor <;> assumption)
      |>.seq (.optionalExact Codec.text_sound)
      |>.seq (.optionalExact Codec.text_sound)
      |>.seq (.optionalExact ExternalDocs.sound.inner)
      |>.seq (.optionalExact Codec.text_sound)
      |>.seq (.optional (Parameter.after_sound le).list fun _ proper => proper.parameters)
      |>.seq (.optional (RequestBody.sound le) fun _ proper => proper.requestBody)
      |>.seq (.defaulted (Response.sound le).table.toReturns (Form.table_nil _)
        fun _ proper => proper.responses)
      |>.seq (.optional sound.table.table fun _ proper => proper.callbacks)
      |>.seq (.optionalExact Codec.bool_sound)
      |>.seq (.optional SecurityRequirement.sound.list fun _ _ _ _ _ _ _ _ => trivial)
      |>.seq (.optional Server.sound.inner.list fun _ _ _ _ _ _ => trivial))
    (by decide) fun _ => rfl

/-- What a path holds comes back. -/
structure PathItem.Proper (inner : Form Operation) (item : PathItem) : Prop where
  get : ∀ operation ∈ item.get, inner.proper operation
  put : ∀ operation ∈ item.put, inner.proper operation
  post : ∀ operation ∈ item.post, inner.proper operation
  delete : ∀ operation ∈ item.delete, inner.proper operation
  options : ∀ operation ∈ item.options, inner.proper operation
  head : ∀ operation ∈ item.head, inner.proper operation
  patch : ∀ operation ∈ item.patch, inner.proper operation
  trace : ∀ operation ∈ item.trace, inner.proper operation
  parameters : ∀ parameters ∈ item.parameters, Parameter.form.list.proper parameters

/-- Paths over operations of a form. -/
def PathItem.layerForm (inner : Form Operation) : Form PathItem where
  proper := PathItem.Proper inner
  plain item := { item with
    get := item.get.map inner.plain
    put := item.put.map inner.plain
    post := item.post.map inner.plain
    delete := item.delete.map inner.plain
    options := item.options.map inner.plain
    head := item.head.map inner.plain
    patch := item.patch.map inner.plain
    trace := item.trace.map inner.plain
    servers := item.servers.map Server.form.list.plain
    parameters := item.parameters.map Parameter.form.list.plain }

/-- Paths come back if their operations do, whichever of the eight they have. -/
theorem PathItem.sound_layer {room : Nat} {inner : Codec Operation} {form : Form Operation}
    (le : room ≤ stepLimit) (sound : inner.Sound form) :
    (PathItem.layer room inner).Sound (PathItem.layerForm form) :=
  Codec.sound_record
    (Fields.Sound.map (PathItem.layerForm form) (.optionalExact Codec.text_sound)
        (by intros; constructor <;> assumption)
      |>.seq (.optionalExact Codec.text_sound)
      |>.seq (.optionalExact Codec.text_sound)
      |>.seq (.optional sound fun _ proper => proper.get)
      |>.seq (.optional sound fun _ proper => proper.put)
      |>.seq (.optional sound fun _ proper => proper.post)
      |>.seq (.optional sound fun _ proper => proper.delete)
      |>.seq (.optional sound fun _ proper => proper.options)
      |>.seq (.optional sound fun _ proper => proper.head)
      |>.seq (.optional sound fun _ proper => proper.patch)
      |>.seq (.optional sound fun _ proper => proper.trace)
      |>.seq (.optional Server.sound.inner.list fun _ _ _ _ _ _ => trivial)
      |>.seq (.optional (Parameter.after_sound le).list fun _ proper => proper.parameters))
    (by decide) fun _ => rfl

/-- Paths, followed down to a depth. -/
def PathItem.form : Nat → Form PathItem
  | 0 => PathItem.layerForm (Operation.layerForm .exact)
  | depth + 1 => PathItem.layerForm (Operation.layerForm (form depth))

/-- Paths come back, however many of them hold one another as callbacks. -/
theorem PathItem.sound {depth room : Nat} (le : room ≤ depth) (within : depth ≤ stepLimit) :
    (PathItem.codec room).Sound (PathItem.form depth) := by
  induction depth generalizing room with
  | zero =>
    obtain rfl := Nat.le_zero.mp le
    exact PathItem.sound_layer (Nat.zero_le _) (Codec.full_sound _)
  | succ depth inductionHypothesis =>
    match room with
    | 0 => exact PathItem.sound_layer (Nat.zero_le _) (Codec.full_sound _)
    | 1 =>
      refine PathItem.sound_layer (by omega) ?_
      exact Operation.sound_layer (Nat.zero_le _) (Codec.full_sound _)
    | room + 2 =>
      rw [PathItem.codec]
      refine PathItem.sound_layer (by omega) (Codec.Sound.later ?_)
      refine Operation.sound_layer (by omega) (Codec.Sound.later ?_)
      exact inductionHypothesis (by omega) (by omega)

/-- Paths inside a document. -/
def PathItem.inner : Form PathItem :=
  PathItem.form stepLimit

theorem PathItem.inner_sound {room : Nat} (le : room ≤ stepLimit) :
    (PathItem.innerCodec room).Sound PathItem.inner :=
  Codec.Sound.after fun _ => PathItem.sound (by omega) (Nat.le_refl _)

/-! ### Descriptions and security schemes -/

theorem Contact.sound : Contact.codec.Sound .exact :=
  Codec.sound_record
    (Fields.Sound.map .exact (.optionalExact Codec.text_sound) (by intros; trivial)
      |>.seq (.optionalExact Codec.text_sound)
      |>.seq (.optionalExact Codec.text_sound))
    (by decide) fun _ => rfl

theorem License.sound : License.codec.Sound .exact :=
  Codec.sound_record
    (Fields.Sound.map .exact (.defaultedExact Codec.text_sound) (by intros; trivial)
      |>.seq (.optionalExact Codec.text_sound))
    (by decide) fun _ => rfl

theorem Info.sound : Info.codec.Sound .exact :=
  Codec.sound_record
    (Fields.Sound.map .exact (.defaultedExact Codec.text_sound) (by intros; trivial)
      |>.seq (.optionalExact Codec.text_sound)
      |>.seq (.optionalExact Codec.text_sound)
      |>.seq (.optionalExact Contact.sound)
      |>.seq (.optionalExact License.sound)
      |>.seq (.defaultedExact Codec.text_sound))
    (by decide) fun _ => rfl

/-- Ways of obtaining a token. -/
def OAuthFlow.form : Form OAuthFlow :=
  .total fun flow => { flow with scopes := Form.exact.table.plain flow.scopes }

theorem OAuthFlow.sound : OAuthFlow.codec.Sound OAuthFlow.form :=
  Codec.sound_record
    (Fields.Sound.map OAuthFlow.form (.optionalExact Codec.text_sound) (by intros; trivial)
      |>.seq (.optionalExact Codec.text_sound)
      |>.seq (.optionalExact Codec.text_sound)
      |>.seq (.defaulted Codec.text_sound.table.toReturns (Form.table_nil _)
        fun _ _ _ _ => trivial))
    (by decide) fun _ => rfl

/-- All ways of obtaining a token. -/
def OAuthFlows.form : Form OAuthFlows :=
  .total fun flows => {
    implicit := flows.implicit.map OAuthFlow.form.plain
    password := flows.password.map OAuthFlow.form.plain
    clientCredentials := flows.clientCredentials.map OAuthFlow.form.plain
    authorizationCode := flows.authorizationCode.map OAuthFlow.form.plain }

theorem OAuthFlows.sound : OAuthFlows.codec.Sound OAuthFlows.form :=
  Codec.sound_record
    (Fields.Sound.map OAuthFlows.form (.optional OAuthFlow.sound fun _ _ _ _ => trivial)
        (by intros; trivial)
      |>.seq (.optional OAuthFlow.sound fun _ _ _ _ => trivial)
      |>.seq (.optional OAuthFlow.sound fun _ _ _ _ => trivial)
      |>.seq (.optional OAuthFlow.sound fun _ _ _ _ => trivial))
    (by decide) fun _ => rfl

/-- Security schemes. -/
def SecurityScheme.form : Form SecurityScheme :=
  .total fun scheme => { scheme with flows := scheme.flows.map OAuthFlows.form.plain }

theorem SecurityScheme.sound : SecurityScheme.codec.Sound SecurityScheme.form :=
  Codec.sound_record
    (Fields.Sound.map SecurityScheme.form (.defaultedExact Codec.text_sound)
        (by intros; trivial)
      |>.seq (.optionalExact Codec.text_sound)
      |>.seq (.optionalExact Codec.text_sound)
      |>.seq (.optionalExact Codec.text_sound)
      |>.seq (.optionalExact Codec.text_sound)
      |>.seq (.optionalExact Codec.text_sound)
      |>.seq (.optional OAuthFlows.sound fun _ _ _ _ => trivial)
      |>.seq (.optionalExact Codec.text_sound))
    (by decide) fun _ => rfl

theorem GroupTag.sound : GroupTag.codec.Sound .exact :=
  Codec.sound_record
    (Fields.Sound.map .exact (.defaultedExact Codec.text_sound) (by intros; trivial)
      |>.seq (.optionalExact Codec.text_sound)
      |>.seq (.optionalExact ExternalDocs.sound))
    (by decide) fun _ => rfl

/-! ### Documents -/

/-- What components hold comes back. -/
structure Components.Proper (components : Components) : Prop where
  schemas : ∀ schemas ∈ components.schemas, Schema.inner.table.proper schemas
  responses : ∀ responses ∈ components.responses, Response.form.table.proper responses
  parameters : ∀ parameters ∈ components.parameters, Parameter.form.table.proper parameters
  examples : ∀ examples ∈ components.examples, Example.form.table.proper examples
  requestBodies : ∀ bodies ∈ components.requestBodies, RequestBody.form.table.proper bodies
  headers : ∀ headers ∈ components.headers, Header.form.table.proper headers
  links : ∀ links ∈ components.links, Link.form.table.proper links
  callbacks : ∀ callbacks ∈ components.callbacks, PathItem.inner.table.table.proper callbacks

/-- Components. -/
def Components.form : Form Components where
  proper := Components.Proper
  plain components := { components with
    schemas := components.schemas.map Schema.inner.table.plain
    responses := components.responses.map Response.form.table.plain
    parameters := components.parameters.map Parameter.form.table.plain
    examples := components.examples.map Example.form.table.plain
    requestBodies := components.requestBodies.map RequestBody.form.table.plain
    headers := components.headers.map Header.form.table.plain
    securitySchemes := components.securitySchemes.map SecurityScheme.form.table.plain
    links := components.links.map Link.form.table.plain
    callbacks := components.callbacks.map PathItem.inner.table.table.plain }

/-- The tables of all components come back, schemes for access without any condition. -/
theorem Components.sound {room : Nat} (le : room ≤ stepLimit) :
    (Components.codec room).Sound Components.form :=
  Codec.sound_record
    (Fields.Sound.map Components.form
        (.optional (Schema.inner_sound le).table fun _ proper => proper.schemas)
        (by intros; constructor <;> assumption)
      |>.seq (.optional (Response.sound le).table fun _ proper => proper.responses)
      |>.seq (.optional (Parameter.after_sound le).table fun _ proper => proper.parameters)
      |>.seq (.optional (examples_sound le) fun _ proper => proper.examples)
      |>.seq (.optional (RequestBody.sound le).table fun _ proper => proper.requestBodies)
      |>.seq (.optional (Header.sound le).table fun _ proper => proper.headers)
      |>.seq (.optional SecurityScheme.sound.table fun _ _ _ _ _ _ => trivial)
      |>.seq (.optional (Link.sound le).table fun _ proper => proper.links)
      |>.seq (.optional (PathItem.inner_sound le).table.table fun _ proper => proper.callbacks))
    (by decide) fun _ => rfl

/-- Components that a document leaves out are proper. -/
theorem Components.proper_empty : Components.Proper {} := by
  constructor <;> exact nofun

end GoApiDoc.Document

namespace GoApiDoc

open Document

namespace Document

/-- What a document holds comes back. -/
structure Proper (document : Document) : Prop where
  paths : PathItem.inner.table.proper document.paths
  components : Components.Proper document.components

/-- The document as which a proper document comes back: free data are the plain data that they are
written as, the surrogates in the names of tables are replaced, and everything else is as it was. -/
def plain (document : Document) : Document :=
  { document with
    servers := document.servers.map Server.form.list.plain
    paths := PathItem.inner.table.plain document.paths
    components := Components.form.plain document.components
    security := document.security.map SecurityRequirement.form.list.plain }

/-- Documents. -/
def form : Form Document :=
  ⟨Proper, plain⟩

/-- Every proper document comes back. -/
theorem sound : Document.codec.Sound Document.form :=
  Codec.sound_record
    (Fields.Sound.map Document.form (.defaultedExact Codec.text_sound)
        (by intros; constructor <;> assumption)
      |>.seq (.optionalExact Info.sound)
      |>.seq (.optional Server.sound.list fun _ _ _ _ _ _ => trivial)
      |>.seq (.defaulted (PathItem.inner_sound (Nat.le_refl _)).table.toReturns (Form.table_nil _)
        fun _ proper => proper.paths)
      |>.seq (.defaulted (Components.sound (Nat.le_refl _)).toReturns Components.proper_empty
        fun _ proper => proper.components)
      |>.seq (.optional SecurityRequirement.sound.list fun _ _ _ _ _ _ _ _ => trivial)
      |>.seq (.optionalExact GroupTag.sound.exactList)
      |>.seq (.optionalExact ExternalDocs.sound))
    (by decide) fun _ => rfl

end Document

end GoApiDoc
