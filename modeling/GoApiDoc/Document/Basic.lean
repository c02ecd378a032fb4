/-
This file holds documents: the description of the interface, its paths, and the components
that the paths refer to by name.
-/

import GoApiDoc.Document.Path

namespace GoApiDoc.Document

/-! ### The description of the interface -/

/-- Whom to ask about the interface. -/
structure Contact where
  name : Option Text := none
  url : Option Text := none
  email : Option Text := none
  deriving Repr

/-- How contact data is read and written. -/
def Contact.codec : Codec Contact :=
  Codec.record <| Contact.mk
    <$> Fields.optional "name" Codec.text Contact.name
    <*> Fields.optional "url" Codec.text Contact.url
    <*> Fields.optional "email" Codec.text Contact.email

/-- The licence of the interface. -/
structure License where
  name : Text := .plain ""
  url : Option Text := none
  deriving Repr

/-- How a licence is read and written. -/
def License.codec : Codec License :=
  Codec.record <| License.mk
    <$> Fields.defaulted "name" Codec.text (.plain "") License.name
    <*> Fields.optional "url" Codec.text License.url

/-- The description of the interface. -/
structure Info where
  title : Text := .plain ""
  description : Option Text := none
  termsOfService : Option Text := none
  contact : Option Contact := none
  license : Option License := none
  version : Text := .plain ""
  deriving Repr

/-- How the description of the interface is read and written. -/
def Info.codec : Codec Info :=
  Codec.record <| Info.mk
    <$> Fields.defaulted "title" Codec.text (.plain "") Info.title
    <*> Fields.optional "description" Codec.text Info.description
    <*> Fields.optional ⟨"termsOfService", "terms_of_service"⟩ Codec.text Info.termsOfService
    <*> Fields.optional "contact" Contact.codec Info.contact
    <*> Fields.optional "license" License.codec Info.license
    <*> Fields.defaulted "version" Codec.text (.plain "") Info.version

/-! ### Security schemes -/

/-- One way of obtaining a token. -/
structure OAuthFlow where
  authorizationUrl : Option Text := none
  tokenUrl : Option Text := none
  refreshUrl : Option Text := none
  scopes : Table Text := []
  deriving Repr

/-- How one way of obtaining a token is read and written. -/
def OAuthFlow.codec : Codec OAuthFlow :=
  Codec.record <| OAuthFlow.mk
    <$> Fields.optional ⟨"authorizationUrl", "authorization_url"⟩ Codec.text
      OAuthFlow.authorizationUrl
    <*> Fields.optional ⟨"tokenUrl", "token_url"⟩ Codec.text OAuthFlow.tokenUrl
    <*> Fields.optional ⟨"refreshUrl", "refresh_url"⟩ Codec.text OAuthFlow.refreshUrl
    <*> Fields.defaulted "scopes" (Codec.table Codec.text) [] OAuthFlow.scopes

/-- The ways of obtaining a token. -/
structure OAuthFlows where
  implicit : Option OAuthFlow := none
  password : Option OAuthFlow := none
  clientCredentials : Option OAuthFlow := none
  authorizationCode : Option OAuthFlow := none
  deriving Repr

/-- How the ways of obtaining a token are read and written. -/
def OAuthFlows.codec : Codec OAuthFlows :=
  Codec.record <| OAuthFlows.mk
    <$> Fields.optional "implicit" OAuthFlow.codec OAuthFlows.implicit
    <*> Fields.optional "password" OAuthFlow.codec OAuthFlows.password
    <*> Fields.optional ⟨"clientCredentials", "client_credentials"⟩ OAuthFlow.codec
      OAuthFlows.clientCredentials
    <*> Fields.optional ⟨"authorizationCode", "authorization_code"⟩ OAuthFlow.codec
      OAuthFlows.authorizationCode

/-- How callers prove who they are. -/
structure SecurityScheme where
  type : Text := .plain ""
  description : Option Text := none
  name : Option Text := none
  location : Option Text := none
  scheme : Option Text := none
  bearerFormat : Option Text := none
  flows : Option OAuthFlows := none
  openIdConnectUrl : Option Text := none
  deriving Repr

/-- How a security scheme is read and written. -/
def SecurityScheme.codec : Codec SecurityScheme :=
  Codec.record <| SecurityScheme.mk
    <$> Fields.defaulted "type" Codec.text (.plain "") SecurityScheme.type
    <*> Fields.optional "description" Codec.text SecurityScheme.description
    <*> Fields.optional "name" Codec.text SecurityScheme.name
    <*> Fields.optional ⟨"in", "location"⟩ Codec.text SecurityScheme.location
    <*> Fields.optional "scheme" Codec.text SecurityScheme.scheme
    <*> Fields.optional ⟨"bearerFormat", "bearer_format"⟩ Codec.text SecurityScheme.bearerFormat
    <*> Fields.optional "flows" OAuthFlows.codec SecurityScheme.flows
    <*> Fields.optional ⟨"openIdConnectUrl", "open_id_connect_url"⟩ Codec.text
      SecurityScheme.openIdConnectUrl

/-! ### Documents -/

/-- A tag by which operations are grouped. -/
structure GroupTag where
  name : Text := .plain ""
  description : Option Text := none
  externalDocs : Option ExternalDocs := none
  deriving Repr

/-- How a tag is read and written. -/
def GroupTag.codec : Codec GroupTag :=
  Codec.record <| GroupTag.mk
    <$> Fields.defaulted "name" Codec.text (.plain "") GroupTag.name
    <*> Fields.optional "description" Codec.text GroupTag.description
    <*> Fields.optional ⟨"externalDocs", "external_docs"⟩ ExternalDocs.codec GroupTag.externalDocs

/-- What the paths refer to by name. -/
structure Components where
  schemas : Option (Table Schema) := none
  responses : Option (Table Response) := none
  parameters : Option (Table Parameter) := none
  examples : Option (Table Example) := none
  requestBodies : Option (Table RequestBody) := none
  headers : Option (Table Header) := none
  securitySchemes : Option (Table SecurityScheme) := none
  links : Option (Table Link) := none
  callbacks : Option (Table (Table PathItem)) := none

/-- How components are read and written, given the room for what lies within them. -/
def Components.codec (room : Nat) : Codec Components :=
  Codec.record <| Components.mk
    <$> Fields.optional "schemas" (Codec.table (Schema.codec room .alone)) Components.schemas
    <*> Fields.optional "responses" (Codec.table (Response.codec room)) Components.responses
    <*> Fields.optional "parameters" (Codec.table (Codec.after 1 room Parameter.codec))
      Components.parameters
    <*> Fields.optional "examples" (examplesCodec room) Components.examples
    <*> Fields.optional ⟨"requestBodies", "request_bodies"⟩ (Codec.table (RequestBody.codec room))
      Components.requestBodies
    <*> Fields.optional "headers" (Codec.table (Header.codec room)) Components.headers
    <*> Fields.optional ⟨"securitySchemes", "security_schemes"⟩ (Codec.table SecurityScheme.codec)
      Components.securitySchemes
    <*> Fields.optional "links" (Codec.table (Link.codec room)) Components.links
    <*> Fields.optional "callbacks" (Codec.table (Codec.table (PathItem.innerCodec room)))
      Components.callbacks

end GoApiDoc.Document

namespace GoApiDoc

open Document

/-- A document. -/
structure Document where
  openapi : Text := .plain "3.0.2"
  info : Option Info := none
  servers : Option (List Server) := none
  paths : Table PathItem := []
  components : Components := {}
  security : Option (List SecurityRequirement) := none
  tags : Option (List GroupTag) := none
  externalDocs : Option ExternalDocs := none

namespace Document

/-- How a document is read and written. -/
def codec : Codec Document :=
  Codec.record <| Document.mk
    <$> Fields.defaulted "openapi" Codec.text (.plain "3.0.2") openapi
    <*> Fields.optional "info" Info.codec info
    <*> Fields.optional "servers" (Codec.list Server.codec) servers
    <*> Fields.defaulted "paths" (Codec.table (PathItem.innerCodec stepLimit)) [] paths
    <*> Fields.defaulted "components" (Components.codec stepLimit) {} components
    <*> Fields.optional "security" (Codec.list SecurityRequirement.codec) security
    <*> Fields.optional "tags" (Codec.list GroupTag.codec) tags
    <*> Fields.optional ⟨"externalDocs", "external_docs"⟩ ExternalDocs.codec externalDocs

end Document

end GoApiDoc
