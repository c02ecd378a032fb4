/-
This file holds the operations of paths, and how two descriptions of one path are merged. An
operation may describe callbacks, which are paths again, so the codecs of both are built in
layers, as deep as there is room.

Merging lets the later description win where it says something: text that is not empty and
operations that are there replace, servers are added, and parameters are added unless one of
the same name and location is there already.
-/

import GoApiDoc.Document.Content

namespace GoApiDoc.Document

/-! ### Operations and paths -/

/-- The lists of scopes that one of several security schemes asks for. -/
abbrev SecurityRequirement := Table (List Text)

/-- How a security requirement is read and written. -/
def SecurityRequirement.codec : Codec SecurityRequirement :=
  Codec.table (Codec.list Codec.text)

mutual

/-- What can be done with one method on one path. -/
structure Operation where
  tags : Option (List Text) := none
  summary : Option Text := none
  description : Option Text := none
  externalDocs : Option ExternalDocs := none
  operationId : Option Text := none
  parameters : Option (List Parameter) := none
  requestBody : Option RequestBody := none
  responses : List (Text × Response) := []
  callbacks : Option (List (Text × List (Text × PathItem))) := none
  deprecated : Option Bool := none
  security : Option (List (List (Text × List Text))) := none
  servers : Option (List Server) := none

/-- The operations of one path and what they share. -/
structure PathItem where
  ref : Option Text := none
  summary : Option Text := none
  description : Option Text := none
  get : Option Operation := none
  put : Option Operation := none
  post : Option Operation := none
  delete : Option Operation := none
  options : Option Operation := none
  head : Option Operation := none
  patch : Option Operation := none
  trace : Option Operation := none
  servers : Option (List Server) := none
  parameters : Option (List Parameter) := none

end

/-! ### Codecs -/

/-- How an operation is read and written, given a codec for the paths of its callbacks. -/
def Operation.layer (room : Nat) (inner : Codec PathItem) : Codec Operation :=
  Codec.record <| Operation.mk
    <$> Fields.optional "tags" (Codec.list Codec.text) Operation.tags
    <*> Fields.optional "summary" Codec.text Operation.summary
    <*> Fields.optional "description" Codec.text Operation.description
    <*> Fields.optional ⟨"externalDocs", "external_docs"⟩ (Codec.inner room ExternalDocs.codec)
      Operation.externalDocs
    <*> Fields.optional ⟨"operationId", "operation_id"⟩ Codec.text Operation.operationId
    <*> Fields.optional "parameters" (Codec.list (Codec.after 1 room Parameter.codec))
      Operation.parameters
    <*> Fields.optional ⟨"requestBody", "request_body"⟩ (RequestBody.codec room)
      Operation.requestBody
    <*> Fields.defaulted "responses" (Codec.table (Response.codec room)) [] Operation.responses
    <*> Fields.optional "callbacks" (Codec.table (Codec.table inner)) Operation.callbacks
    <*> Fields.optional "deprecated" Codec.bool Operation.deprecated
    <*> Fields.optional "security" (Codec.list SecurityRequirement.codec) Operation.security
    <*> Fields.optional "servers" (Codec.list (Codec.inner room Server.codec)) Operation.servers

/-- How a path is read and written, given a codec for its operations. -/
def PathItem.layer (room : Nat) (inner : Codec Operation) : Codec PathItem :=
  Codec.record <| PathItem.mk
    <$> Fields.optional ⟨"$ref", "ref"⟩ Codec.text PathItem.ref
    <*> Fields.optional "summary" Codec.text PathItem.summary
    <*> Fields.optional "description" Codec.text PathItem.description
    <*> Fields.optional "get" inner PathItem.get
    <*> Fields.optional "put" inner PathItem.put
    <*> Fields.optional "post" inner PathItem.post
    <*> Fields.optional "delete" inner PathItem.delete
    <*> Fields.optional "options" inner PathItem.options
    <*> Fields.optional "head" inner PathItem.head
    <*> Fields.optional "patch" inner PathItem.patch
    <*> Fields.optional "trace" inner PathItem.trace
    <*> Fields.optional "servers" (Codec.list (Codec.inner room Server.codec)) PathItem.servers
    <*> Fields.optional "parameters" (Codec.list (Codec.after 1 room Parameter.codec))
      PathItem.parameters

/-- How paths are read and written. One step leads to an operation, and one from there to a
path of its callbacks. -/
def PathItem.codec : Nat → Codec PathItem
  | 0 => PathItem.layer 0 Codec.full
  | 1 => PathItem.layer 1 (Operation.layer 0 Codec.full)
  | room + 2 =>
    PathItem.layer (room + 2)
      (Codec.later fun _ => Operation.layer (room + 1) (Codec.later fun _ => codec room))

/-- How a path is read and written that two steps lead to. -/
def PathItem.innerCodec (room : Nat) : Codec PathItem :=
  Codec.after 2 room PathItem.codec

/-- How operations are read and written that are no part of a path. One step leads to a path of
their callbacks. -/
def Operation.codec (room : Nat) : Codec Operation :=
  Operation.layer room (Codec.after 1 room PathItem.codec)

/-- How a table of paths is read and written that is no part of a document. Its names are paths
and have to be text. -/
def pathsCodec : Codec (Table PathItem) :=
  Codec.tableBy Codec.plainText (PathItem.innerCodec stepLimit)

/-! ### Merging -/

/-- The later text if it is not empty, else the earlier one. -/
def laterText (earlier later : Option Text) : Option Text :=
  match later with
  | none => earlier
  | some text => if text.isEmpty then earlier else some text

/-- The servers of both, the later ones last. An empty later list adds nothing. -/
def mergeServers (earlier later : Option (List Server)) : Option (List Server) :=
  match later with
  | none => earlier
  | some [] => earlier
  | some servers => some (earlier.getD [] ++ servers)

/-- The parameters that are new: those whose key is not among the seen ones nor before them. -/
def newParameters (seen : List (Text × Text)) : List Parameter → List Parameter
  | [] => []
  | parameter :: rest =>
    if seen.contains parameter.key then newParameters seen rest
    else parameter :: newParameters (parameter.key :: seen) rest

/-- The parameters of both, the new ones of the later list last. An empty later list adds
nothing. -/
def mergeParameters (earlier later : Option (List Parameter)) : Option (List Parameter) :=
  match later with
  | none => earlier
  | some [] => earlier
  | some parameters =>
    let kept := earlier.getD []
    some (kept ++ newParameters (kept.map Parameter.key) parameters)

/-- One description of a path with a later one merged into it. -/
def PathItem.merge (earlier later : PathItem) : PathItem where
  ref := laterText earlier.ref later.ref
  summary := laterText earlier.summary later.summary
  description := laterText earlier.description later.description
  get := later.get.or earlier.get
  put := later.put.or earlier.put
  post := later.post.or earlier.post
  delete := later.delete.or earlier.delete
  options := later.options.or earlier.options
  head := later.head.or earlier.head
  patch := later.patch.or earlier.patch
  trace := later.trace.or earlier.trace
  servers := mergeServers earlier.servers later.servers
  parameters := mergeParameters earlier.parameters later.parameters

end GoApiDoc.Document
