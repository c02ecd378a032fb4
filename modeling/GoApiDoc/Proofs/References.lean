/-
This file says that the schemas of a closed list of types refer to nothing outside the list.

Two places name the schema of a type. Where a type is used its name becomes a reference, and where
it is declared its name becomes a key of the table of schemas. Both lower-case the first letter and
do nothing else to the name, so a reference to a declared type is the key of that type. All that is
left is to follow a type down to the one name it is built on: pointers, sequences and maps add
layers around the schema of that name and no names of their own.
-/

import GoApiDoc.Proofs.Assembly
import GoApiDoc.Proofs.Reading

namespace GoApiDoc

open Document Go Text

/-! ### Schemas within schemas -/

/-- The schemas that annotations hold. -/
def Document.Annotations.parts {σ : Type} (annotations : Annotations σ) : List σ :=
  annotations.allOf.getD [] ++ annotations.oneOf.getD [] ++ annotations.anyOf.getD [] ++
    annotations.negation.toList

/-- The schema of further properties, if they have one. -/
def Document.Additional.parts {σ : Type} : Additional σ → List σ
  | .described schema => [schema]
  | .allowed _ => []

/-- The schemas that stand directly in a schema. -/
def Document.Schema.parts : Schema → List Schema
  | .ref _ => []
  | .object shape =>
    shape.annotations.parts ++ (shape.properties.getD []).map Prod.snd ++
      (shape.additional.map Additional.parts).getD []
  | .array shape => shape.annotations.parts ++ [shape.items]
  | .primitive shape => shape.annotations.parts

/-- A schema occurs in another one at some depth; at depth zero it is that schema. -/
inductive Document.Schema.OccursIn (schema : Schema) : Schema → Prop
  | here : OccursIn schema schema
  | deeper {part whole : Schema} (member : part ∈ whole.parts) (inside : OccursIn schema part) :
      OccursIn schema whole

theorem Document.Schema.occursIn_iff {schema whole : Schema} :
    schema.OccursIn whole ↔ schema = whole ∨ ∃ part ∈ whole.parts, schema.OccursIn part := by
  constructor
  · rintro (_ | ⟨member, inside⟩)
    · exact Or.inl rfl
    · exact Or.inr ⟨_, member, inside⟩
  · rintro (rfl | ⟨part, member, inside⟩)
    · exact .here
    · exact .deeper member inside

/-- The schema refers to components of the given names only, at any depth. -/
def Document.Schema.RefersTo (names : List String) (schema : Schema) : Prop :=
  ∀ target, (Schema.ref target).OccursIn schema →
    ∃ name ∈ names, target = .plain ("#/components/schemas/" ++ name)

theorem Document.Schema.refersTo_of_parts {names : List String} {schema : Schema}
    (noRef : ∀ target, schema ≠ .ref target)
    (parts : ∀ part ∈ schema.parts, part.RefersTo names) : schema.RefersTo names := by
  intro target occurs
  obtain same | ⟨part, member, inside⟩ := Schema.occursIn_iff.mp occurs
  · exact absurd same.symm (noRef target)
  · exact parts part member target inside

theorem Document.Schema.refersTo_refTo {names : List String} {name : String}
    (member : name ∈ names) : (Schema.refTo name).RefersTo names := by
  intro target occurs
  obtain same | ⟨part, inside, -⟩ := Schema.occursIn_iff.mp occurs
  · exact ⟨name, member, Schema.ref.inj same⟩
  · exact absurd inside List.not_mem_nil

/-! ### Closed types -/

/-- The type that is left without pointers, sequences and maps around it. -/
def Go.TypeRef.leaf : TypeRef → TypeRef
  | .pointer element => element.leaf
  | .sequence element _ => element.leaf
  | .mapping _ value => value.leaf
  | leaf => leaf

/-- The leaf of the type has no schema, or is a basic type, or is one of the names. -/
def Go.TypeRef.ClosedIn (names : List String) (type : TypeRef) : Prop :=
  (∃ text, type.leaf = .other text) ∨ type.leaf.spelling ∈ primitiveTypes.names ∨
    ∃ name ∈ names, type.leaf = .named name

/-- Every type that the declaration uses is closed: those of the fields that are serialised, and
the underlying one. -/
structure Go.TypeDeclaration.ClosedIn (names : List String) (declaration : TypeDeclaration) :
    Prop where
  fields : ∀ fields ∈ declaration.fields, ∀ field ∈ fields, ∀ name,
    field.serialName = .ok name → name ≠ .plain "" → field.type.ClosedIn names
  underlying : ∀ type ∈ declaration.underlying, type.ClosedIn names

theorem schemaOfName_of_primitive {name : String} (basic : name ∈ primitiveTypes.names) :
    ∃ shape : PrimitiveShape Schema, schemaOfName name = .primitive shape ∧
      shape.annotations = {} := by
  unfold schemaOfName
  cases found : primitiveTypes.get? name with
  | none => exact absurd basic ((Table.get?_eq_none_iff name _).mp found)
  | some entry => exact ⟨_, rfl, rfl⟩

theorem refersTo_of_primitive {names : List String} {name : String}
    (basic : name ∈ primitiveTypes.names) : (schemaOfName name).RefersTo names := by
  obtain ⟨shape, schema, plain⟩ := schemaOfName_of_primitive basic
  rw [schema]
  refine Schema.refersTo_of_parts nofun fun part member => ?_
  rw [Schema.parts, plain] at member
  exact absurd member List.not_mem_nil

theorem refersTo_schemaOfName {names : List String} {name : String} (member : name ∈ names) :
    (schemaOfName name).RefersTo (names.map lowerFirst) := by
  by_cases basic : name ∈ primitiveTypes.names
  · exact refersTo_of_primitive basic
  · unfold schemaOfName
    rw [(Table.get?_eq_none_iff name _).mpr basic]
    exact Schema.refersTo_refTo (List.mem_map_of_mem member)

/-- The schema of a type refers to the name at its leaf, if it refers to anything. -/
theorem refersTo_schemaOfType {names : List String} {type : TypeRef} {schema : Schema}
    (closed : type.ClosedIn names) (derived : schemaOfType type = some schema) :
    schema.RefersTo (names.map lowerFirst) := by
  induction type generalizing schema with
  | named name =>
    obtain rfl := Option.some.inj derived
    obtain ⟨text, other⟩ | basic | ⟨declared, member, same⟩ := closed
    · nomatch other
    · exact refersTo_of_primitive basic
    · obtain rfl := TypeRef.named.inj same
      exact refersTo_schemaOfName member
  | qualified package name =>
    obtain rfl := Option.some.inj derived
    obtain ⟨text, other⟩ | basic | ⟨declared, member, same⟩ := closed
    · nomatch other
    · exact refersTo_of_primitive basic
    · nomatch same
  | pointer element inductionHypothesis => exact inductionHypothesis closed derived
  | sequence element length inductionHypothesis =>
    obtain ⟨items, derivedItems, rfl⟩ := Option.map_eq_some_iff.mp derived
    refine Schema.refersTo_of_parts nofun fun part member => ?_
    obtain rfl := List.mem_singleton.mp member
    exact inductionHypothesis closed derivedItems
  | mapping key value keyHypothesis valueHypothesis =>
    obtain ⟨values, derivedValues, rfl⟩ := Option.map_eq_some_iff.mp derived
    refine Schema.refersTo_of_parts nofun fun part member => ?_
    obtain rfl := List.mem_singleton.mp member
    exact valueHypothesis closed derivedValues
  | other text => nomatch derived

/-! ### Declarations -/

/-- A schema comes from fields exactly when each of them has a name to be serialised under. -/
theorem propertiesOf_isOk_iff (type : String) (fields : List Field) :
    (∃ properties, (propertiesOf type fields).result = .ok properties) ↔
      ∀ field ∈ fields, ∃ name, field.serialName = .ok name := by
  induction fields with
  | nil => exact ⟨fun _ => nofun, fun _ => ⟨[], rfl⟩⟩
  | cons field rest inductionHypothesis =>
    rw [List.forall_mem_cons, ← inductionHypothesis, propertiesOf]
    cases field.serialName with
    | error fault => simp
    | ok name =>
      simp only [Except.ok.injEq, exists_eq', true_and]
      split
      · split
        · rfl
        · rfl
      · split
        · rfl
        · cases (propertiesOf type rest).result with
          | error fault => simp [Except.map]
          | ok others => simp [Except.map]

theorem schemaOfDeclaration_isOk_iff (declaration : TypeDeclaration) :
    (∃ schema, (schemaOfDeclaration declaration).result = .ok schema) ↔
      ∀ fields ∈ declaration.fields, ∀ field ∈ fields, ∃ name, field.serialName = .ok name := by
  unfold schemaOfDeclaration
  cases declared : declaration.fields with
  | none =>
    simp only [Option.mem_def, reduceCtorEq, false_implies, implies_true, iff_true]
    split
    · exact ⟨_, rfl⟩
    · exact ⟨_, rfl⟩
  | some fields =>
    simp only [Option.mem_def, Option.some.injEq, forall_eq']
    rw [← propertiesOf_isOk_iff declaration.name fields]
    cases (propertiesOf declaration.name fields).result with
    | error fault => simp [Except.map]
    | ok properties => simp [Except.map]

theorem refersTo_propertiesOf {names : List String} {type : String} {fields : List Field}
    {properties : List (Text × Schema)}
    (closed : ∀ field ∈ fields, ∀ name, field.serialName = .ok name → name ≠ .plain "" →
      field.type.ClosedIn names)
    (derived : (propertiesOf type fields).result = .ok properties) :
    ∀ entry ∈ properties, entry.2.RefersTo (names.map lowerFirst) := by
  induction fields generalizing properties with
  | nil =>
    obtain rfl := Except.ok.inj derived
    exact nofun
  | cons field rest inductionHypothesis =>
    obtain ⟨closedField, closedRest⟩ := List.forall_mem_cons.mp closed
    rw [propertiesOf] at derived
    split at derived
    · nomatch derived
    · next name serial =>
      split at derived
      · split at derived
        · exact inductionHypothesis closedRest derived
        · exact inductionHypothesis closedRest derived
      · next named =>
        split at derived
        · exact inductionHypothesis closedRest derived
        · next schema derivedSchema =>
          obtain ⟨others, derivedOthers, rfl⟩ := map_eq_ok.mp derived
          have present : name ≠ .plain "" := by
            rintro rfl
            exact named rfl
          exact List.forall_mem_cons.mpr
            ⟨refersTo_schemaOfType (closedField name serial present) derivedSchema,
              inductionHypothesis closedRest derivedOthers⟩

theorem refersTo_schemaOfDeclaration {names : List String} {declaration : TypeDeclaration}
    {schema : Schema} (closed : declaration.ClosedIn names)
    (derived : (schemaOfDeclaration declaration).result = .ok schema) :
    schema.RefersTo (names.map lowerFirst) := by
  unfold schemaOfDeclaration at derived
  split at derived
  · split at derived
    · next schema derivedSchema =>
      obtain rfl := Except.ok.inj derived
      obtain ⟨type, declared, derivedType⟩ := Option.bind_eq_some_iff.mp derivedSchema
      exact refersTo_schemaOfType (closed.underlying type declared) derivedType
    · obtain rfl := Except.ok.inj derived
      exact Schema.refersTo_of_parts nofun fun part member => absurd member List.not_mem_nil
  · next fields declared =>
    obtain ⟨properties, derivedProperties, rfl⟩ := map_eq_ok.mp derived
    refine Schema.refersTo_of_parts nofun fun part member => ?_
    have listed : part ∈ (Table.ofList properties).map Prod.snd := by
      simpa [Schema.parts, Annotations.parts] using member
    obtain ⟨entry, inTable, rfl⟩ := List.mem_map.mp listed
    exact refersTo_propertiesOf (closed.fields fields declared) derivedProperties entry
      (Table.mem_of_mem_ofList inTable)

/-! ### Lists of declarations -/

theorem typeDirective_eq_some {declaration : TypeDeclaration} {directive : Directive}
    (tagged : typeDirective declaration = some directive) :
    directive.kind = .objectSchema ∧ directive.declaration = .type declaration := by
  unfold typeDirective at tagged
  simp only at tagged
  split at tagged
  · obtain rfl := Option.some.inj tagged
    exact ⟨rfl, rfl⟩
  · nomatch tagged

/-- A tagged type is added exactly when it has a schema. -/
theorem applyDirective_type {declaration : TypeDeclaration} {directive : Directive}
    (tagged : typeDirective declaration = some directive) (document : Document) :
    (applyDirective document directive).fault = none ↔
      ∃ schema, (schemaOfDeclaration declaration).result = .ok schema := by
  obtain ⟨kind, declared⟩ := typeDirective_eq_some tagged
  simp only [applyDirective, kind, declared, applySchema]
  cases (schemaOfDeclaration declaration).result with
  | error fault => simp
  | ok schema => simp

theorem schema?_type {declaration : TypeDeclaration} {directive : Directive}
    (tagged : typeDirective declaration = some directive) :
    directive.schema? =
      (schemaOfDeclaration declaration).result.toOption.map
        (.plain (lowerFirst declaration.name), ·) := by
  obtain ⟨kind, declared⟩ := typeDirective_eq_some tagged
  rw [Directive.schema?, if_pos kind, declared]

/-- Tagged types are added without a fault exactly when each of them has a schema. -/
theorem addDeclarations_types (types : List TypeDeclaration) (document : Document)
    (tagged : ∀ type ∈ types, (typeDirective type).isSome) :
    (addDeclarations document (types.map .type)).fault = none ↔
      ∀ type ∈ types, ∃ schema, (schemaOfDeclaration type).result = .ok schema := by
  induction types generalizing document with
  | nil => exact ⟨fun _ => nofun, fun _ => rfl⟩
  | cons type rest inductionHypothesis =>
    obtain ⟨taggedType, taggedRest⟩ := List.forall_mem_cons.mp tagged
    obtain ⟨directive, found⟩ := Option.isSome_iff_exists.mp taggedType
    have extracted : extractDirective (.type type) = .ok (some directive) := by
      rw [extractDirective, found]
    rw [List.map_cons, addDeclarations, extracted, List.forall_mem_cons,
      ← applyDirective_type found document]
    cases applied : (applyDirective document directive).fault with
    | some fault => simp [applied]
    | none =>
      simp only [applied, true_and]
      exact inductionHypothesis _ taggedRest

/-- The schemas that tagged types give, each under the name it is stored by. -/
theorem filterMap_schema? (types : List TypeDeclaration)
    (tagged : ∀ type ∈ types, (typeDirective type).isSome) :
    (directivesIn (types.map .type)).filterMap Directive.schema? =
      types.filterMap fun type =>
        (schemaOfDeclaration type).result.toOption.map (.plain (lowerFirst type.name), ·) := by
  induction types with
  | nil => rfl
  | cons type rest inductionHypothesis =>
    obtain ⟨taggedType, taggedRest⟩ := List.forall_mem_cons.mp tagged
    obtain ⟨directive, found⟩ := Option.isSome_iff_exists.mp taggedType
    have carried : directivesIn ((type :: rest).map .type) =
        directive :: directivesIn (rest.map .type) := by
      rw [directivesIn, List.map_cons, List.filterMap_cons, extractDirective, found]
      rfl
    rw [carried, List.filterMap_cons, List.filterMap_cons, schema?_type found,
      inductionHypothesis taggedRest]

/-- Tagged types that use no type outside their list are added to an empty document without a
fault exactly when each of their fields has a name to be serialised under. The table of schemas
then has the keys of the types and no others, and a reference at any depth of it leads to one of
these keys. -/
theorem addDeclarations_references (types : List TypeDeclaration)
    (tagged : ∀ type ∈ types, (typeDirective type).isSome)
    (closed : ∀ type ∈ types, type.ClosedIn (types.map TypeDeclaration.name)) :
    let added := addDeclarations {} (types.map .type)
    let schemas := added.document.components.schemas.getD []
    (added.fault = none ↔ ∀ type ∈ types, ∀ fields ∈ type.fields, ∀ field ∈ fields,
      ∃ name, field.serialName = .ok name) ∧
    (added.fault = none →
      (∀ key, key ∈ schemas.names ↔ ∃ type ∈ types, .plain (lowerFirst type.name) = key) ∧
      ∀ entry ∈ schemas, ∀ target, (Schema.ref target).OccursIn entry.2 →
        ∃ key ∈ schemas.names, target = .plain "#/components/schemas/" ++ key) := by
  intro added schemas
  have adds := addDeclarations_types types {} tagged
  constructor
  · rw [adds]
    exact forall₂_congr fun type _ => schemaOfDeclaration_isOk_iff type
  · intro succeeded
    have derived := adds.mp succeeded
    have entries := filterMap_schema? types tagged
    have table : schemas = (types.filterMap fun type =>
        (schemaOfDeclaration type).result.toOption.map (.plain (lowerFirst type.name), ·)).foldl
          (fun table entry => Table.put entry.1 entry.2 table) [] := by
      rw [← entries]
      simp only [schemas, added, addDeclarations_document {} _ succeeded, Document.after,
        putAll_getD]
      rfl
    have keys : ∀ key,
        key ∈ schemas.names ↔ ∃ type ∈ types, .plain (lowerFirst type.name) = key := by
      intro key
      rw [table, Table.names_foldl _ fun table entry => Table.names_put entry.1 entry.2 table,
        Table.mem_append_newNames]
      simp only [Table.names, List.map_nil, List.not_mem_nil, false_or, List.mem_map,
        List.mem_filterMap, Option.map_eq_some_iff]
      constructor
      · rintro ⟨entry, ⟨type, member, schema, -, rfl⟩, rfl⟩
        exact ⟨type, member, rfl⟩
      · rintro ⟨type, member, rfl⟩
        obtain ⟨schema, result⟩ := derived type member
        exact ⟨_, ⟨type, member, schema, by rw [result]; rfl, rfl⟩, rfl⟩
    refine ⟨keys, fun entry member target occurs => ?_⟩
    rw [table] at member
    obtain inEmpty | fromType := Table.mem_foldl_put member
    · exact absurd inEmpty List.not_mem_nil
    · obtain ⟨type, declared, given⟩ := List.mem_filterMap.mp fromType
      obtain ⟨schema, result, rfl⟩ := Option.map_eq_some_iff.mp given
      obtain ⟨key, inKeys, reached⟩ := refersTo_schemaOfDeclaration (closed type declared)
        (eq_ok_of_toOption result) target occurs
      refine ⟨key, (keys key).mpr ?_, reached⟩
      simpa using inKeys

/-- Two types that use each other, through a pointer in a sequence and through a map. -/
theorem addDeclarations_references_cycle :
    let types : List TypeDeclaration := [
      { name := "Tree", doc := "gopenapi:objectSchema",
        fields := some [⟨"Children", .sequence (.pointer (.named "Tree")) none, none, false⟩,
          ⟨"Labels", .named "Labels", none, false⟩, ⟨"Raw", .other "func()", none, false⟩] },
      { name := "Labels", doc := "gopenapi:objectSchema",
        underlying := some (.mapping (.named "string") (.named "Tree")) }]
    let added := addDeclarations {} (types.map .type)
    let schemas := added.document.components.schemas.getD []
    added.fault = none ∧ schemas.names = [.plain "tree", .plain "labels"] ∧
      ∀ entry ∈ schemas, ∀ target, (Schema.ref target).OccursIn entry.2 →
        ∃ key ∈ schemas.names, target = .plain "#/components/schemas/" ++ key := by
  intro types added schemas
  have tagged : ∀ type ∈ types, (typeDirective type).isSome := by decide +kernel
  have closed : ∀ type ∈ types, type.ClosedIn (types.map TypeDeclaration.name) := by
    simp only [types, List.forall_mem_cons]
    refine ⟨⟨?_, nofun⟩, ⟨nofun, ?_⟩, nofun⟩
    · rintro fields ⟨⟩
      simp only [List.forall_mem_cons]
      refine ⟨fun _ _ _ => ?_, fun _ _ _ => ?_, fun _ _ _ => Or.inl ⟨"func()", rfl⟩, nofun⟩
      · exact Or.inr (Or.inr ⟨"Tree", by decide, rfl⟩)
      · exact Or.inr (Or.inr ⟨"Labels", by decide, rfl⟩)
    · rintro type ⟨⟩
      exact Or.inr (Or.inr ⟨"Tree", by decide, rfl⟩)
  have succeeded : added.fault = none := Option.isNone_iff_eq_none.mp (by decide +kernel)
  exact ⟨succeeded, by decide +kernel,
    ((addDeclarations_references types tagged closed).2 succeeded).2⟩

end GoApiDoc
