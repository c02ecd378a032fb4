/-
This file derives schemas from Go types. A name of a basic type is a primitive, any other name
refers to the component schema of that name; sequences are arrays, maps are objects with
further properties, pointers count as what they point to, and every other type has no schema.
The schema of a struct describes an object whose properties are its fields.
-/

import GoApiDoc.Document.Schema
import GoApiDoc.Event
import GoApiDoc.StructTag

namespace GoApiDoc

open Document Go Text

/-! ### Types -/

/-- The basic types: name, schema type and format. -/
def primitiveTypes : Table (String × Option String) String :=
  [("bool", "boolean", none),
   ("int64", "integer", some "int64"),
   ("int", "integer", some "int64"),
   ("int32", "integer", some "int32"),
   ("time.Month", "integer", some "int32"),
   ("float64", "number", some "double"),
   ("float", "number", some "double"),
   ("float32", "number", some "float"),
   ("string", "string", none),
   ("time.Time", "string", some "date-time")]

/-- The schema of a type name, possibly with a package in front. -/
def schemaOfName (name : String) : Schema :=
  match primitiveTypes.get? name with
  | some (type, format) => .primitive { type := some (.plain type), format := format.map .plain }
  | none => .refTo (lowerFirst name)

/-- The schema of a type, if it has one. -/
def schemaOfType : TypeRef → Option Schema
  | .named name => some (schemaOfName name)
  | .qualified package name => some (schemaOfName (package ++ "." ++ name))
  | .pointer element => schemaOfType element
  | .sequence element _ => (schemaOfType element).map fun items => .array { items }
  | .mapping _ value =>
    (schemaOfType value).map fun values => .object { additional := some (.described values) }
  | .other _ => none

/-! ### Declarations -/

/-- A result with the reports made on the way, which are there also when it failed. -/
structure Logged (α : Type) where
  log : List Event
  result : Except LiteralFault α

/-- The properties that fields of a type give, repeated names included. -/
def propertiesOf (type : String) : List Field → Logged (List (Text × Schema))
  | [] => ⟨[], .ok []⟩
  | field :: rest =>
    match field.serialName with
    | .error fault => ⟨[], .error fault⟩
    | .ok name =>
      let others := propertiesOf type rest
      if name.isEmpty then
        if field.embedded then
          ⟨.embeddedSkipped field.name type :: others.log, others.result⟩
        else others
      else
        match schemaOfType field.type with
        | none => ⟨.fieldSkipped type field.name field.type.spelling :: others.log, others.result⟩
        | some schema => ⟨others.log, others.result.map ((name, schema) :: ·)⟩

/-- The schema of a type declaration: of a struct the object of its fields, of any other type
the schema of the underlying type, or an empty object where that has none. -/
def schemaOfDeclaration (declaration : TypeDeclaration) : Logged Schema :=
  match declaration.fields with
  | none =>
    match declaration.underlying.bind schemaOfType with
    | some schema => ⟨[], .ok schema⟩
    | none =>
      ⟨[.schemaMissing declaration.name (declaration.underlying.map TypeRef.spelling)],
        .ok (.object { properties := some [] })⟩
  | some fields =>
    let found := propertiesOf declaration.name fields
    ⟨found.log,
      found.result.map fun properties => .object { properties := some (Table.ofList properties) }⟩

end GoApiDoc
