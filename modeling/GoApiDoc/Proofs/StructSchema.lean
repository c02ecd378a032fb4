/-
This file says what the schema of a struct holds. A field is kept if it is serialised under a name
and its type has a schema. The properties of the schema are those of the kept fields: each name
stands where it first appeared and has the schema of the last kept field of that name. So a field
that is left out neither takes a place nor overwrites anything, even if a kept field has its name.
What is left out is reported field by field.

What a field adds to the properties and what it adds to the reports are functions of that field
alone. The properties are then a run of additions to a table, of which both readings, the names in
order and the value of a name, are known.
-/

import GoApiDoc.Proofs.Reading
import GoApiDoc.Proofs.Table
import GoApiDoc.Proofs.Texts
import GoApiDoc.SchemaOf

namespace GoApiDoc

open Document Go

/-! ### One field -/

/-- The property that a field gives, if it is serialised under a name and its type has a schema. -/
def propertyOf (field : Field) : Option (Text × Schema) :=
  match field.serialName with
  | .error _ => none
  | .ok name => if name = .plain "" then none else (schemaOfType field.type).map (name, ·)

/-- Whether a field gives a property. -/
def isKept (field : Field) : Bool :=
  (propertyOf field).isSome

/-- What is reported of a field of a type, with its level: that it has a name and no schema, or that
it is embedded and has no name. -/
def reportOf (type : String) (field : Field) : Option (Level × String) :=
  match field.serialName with
  | .error _ => none
  | .ok name =>
    if name ≠ .plain "" ∧ (schemaOfType field.type).isNone then
      some (.warning, "Skipping field " ++ type ++ "." ++ field.name ++ ": no schema for type " ++
        field.type.spelling)
    else if name = .plain "" ∧ field.embedded then
      some (.debug, "Skipping embedded field " ++ field.name ++ " of " ++ type)
    else none

/-- A report as it is shown. -/
def Event.shown (event : Event) : Level × String :=
  (event.level, event.message)

theorem propertyOf_of_serialName {field : Field} {name : Text}
    (serial : field.serialName = .ok name) :
    propertyOf field =
      if name = .plain "" then none else (schemaOfType field.type).map (name, ·) := by
  rw [propertyOf, serial]

/-! ### All fields -/

/-- The step over a field: what it gives comes in front of what the fields behind it give. -/
theorem propertiesOf_cons (type : String) {field : Field} {name : Text}
    (serial : field.serialName = .ok name) (rest : List Field) :
    (propertiesOf type (field :: rest)).result =
        (propertiesOf type rest).result.map ((propertyOf field).toList ++ ·) ∧
      (propertiesOf type (field :: rest)).log.map Event.shown =
        (reportOf type field).toList ++ (propertiesOf type rest).log.map Event.shown := by
  have same : ∀ read : Except LiteralFault (List (Text × Schema)), read = read.map ([] ++ ·) := by
    intro read
    cases read <;> rfl
  rw [propertiesOf, serial, propertyOf_of_serialName serial]
  simp only
  by_cases unnamed : name = .plain ""
  · subst unnamed
    rw [if_pos (by decide), if_pos rfl]
    by_cases embedded : field.embedded
    · have report : reportOf type field =
          some (.debug, "Skipping embedded field " ++ field.name ++ " of " ++ type) := by
        rw [reportOf, serial]
        exact (if_neg fun both => both.1 rfl).trans (if_pos ⟨rfl, embedded⟩)
      rw [if_pos embedded, report]
      exact ⟨same _, rfl⟩
    · have silent : reportOf type field = none := by
        rw [reportOf, serial]
        exact (if_neg fun both => both.1 rfl).trans (if_neg fun both => embedded both.2)
      rw [if_neg embedded, silent]
      exact ⟨same _, rfl⟩
  · have present : ¬ name.isEmpty := by rwa [Text.isEmpty_iff]
    rw [if_neg present, if_neg unnamed]
    cases described : schemaOfType field.type with
    | none =>
      have report : reportOf type field = some (.warning, "Skipping field " ++ type ++ "." ++
          field.name ++ ": no schema for type " ++ field.type.spelling) := by
        rw [reportOf, serial]
        exact if_pos ⟨unnamed, by rw [described]; rfl⟩
      rw [report]
      exact ⟨same _, rfl⟩
    | some schema =>
      have silent : reportOf type field = none := by
        rw [reportOf, serial]
        simp only [described, Option.isNone_some, Bool.false_eq_true, and_false, if_false]
        exact if_neg fun both => unnamed both.1
      rw [silent]
      exact ⟨rfl, rfl⟩

theorem propertiesOf_of_named (type : String) {fields : List Field}
    (named : ∀ field ∈ fields, ∃ name, field.serialName = .ok name) :
    (propertiesOf type fields).result = .ok (fields.filterMap propertyOf) ∧
      (propertiesOf type fields).log.map Event.shown = fields.filterMap (reportOf type) := by
  have split : ∀ {Value : Type} (gives : Field → Option Value) (field : Field) (rest : List Field),
      (field :: rest).filterMap gives = (gives field).toList ++ rest.filterMap gives := by
    intro Value gives field rest
    rw [List.filterMap_cons]
    cases gives field <;> rfl
  induction fields with
  | nil => exact ⟨rfl, rfl⟩
  | cons field rest inductionHypothesis =>
    obtain ⟨⟨name, serial⟩, namedRest⟩ := List.forall_mem_cons.mp named
    obtain ⟨properties, reports⟩ := inductionHypothesis namedRest
    obtain ⟨result, log⟩ := propertiesOf_cons type serial rest
    rw [result, log, properties, reports, split, split]
    exact ⟨rfl, rfl⟩

/-- The properties are those of the kept fields. -/
theorem filterMap_propertyOf_isKept (fields : List Field) :
    (fields.filter isKept).filterMap propertyOf = fields.filterMap propertyOf := by
  rw [List.filterMap_filter]
  refine congrArg (List.filterMap · fields) (funext fun field => ?_)
  unfold isKept
  cases propertyOf field <;> rfl

/-! ### The schema -/

theorem schemaOfDeclaration_of_named {declaration : TypeDeclaration} {fields : List Field}
    (struct : declaration.fields = some fields)
    (named : ∀ field ∈ fields, ∃ name, field.serialName = .ok name) :
    (schemaOfDeclaration declaration).result = .ok (.object
        { properties := some (Table.ofList (fields.filterMap propertyOf)) }) ∧
      (schemaOfDeclaration declaration).log.map Event.shown =
        fields.filterMap (reportOf declaration.name) := by
  obtain ⟨properties, reports⟩ := propertiesOf_of_named declaration.name named
  rw [schemaOfDeclaration, struct]
  simp only [properties, reports]
  exact ⟨rfl, trivial⟩

/-- The schema of a struct whose fields all have names, though some of these may be empty: an object
and nothing else, whose properties are named as the kept fields, each name once and where it first
appeared, and described as the last kept field of the name. What is reported is one warning for each
field that has a name and no schema and one remark for each embedded field without a name, in the
order of the fields. Fields that are not kept may be added, moved or dropped. -/
theorem schemaOfDeclaration_struct (declaration : TypeDeclaration) (fields : List Field)
    (struct : declaration.fields = some fields)
    (named : ∀ field ∈ fields, ∃ name, field.serialName = .ok name) :
    let kept := fields.filterMap propertyOf
    (∃ table : Table Schema, (schemaOfDeclaration declaration).result =
        .ok (.object { properties := some table }) ∧
      table.names = (kept.map Prod.fst).eraseDups ∧
      ∀ name, table.get? name = (Table.valuesOf name kept).getLast?) ∧
    (schemaOfDeclaration declaration).log.map Event.shown =
      fields.filterMap (reportOf declaration.name) ∧
    ∀ others : List Field, (∀ field ∈ others, ∃ name, field.serialName = .ok name) →
      others.filter isKept = fields.filter isKept →
      (schemaOfDeclaration { declaration with fields := some others }).result =
        (schemaOfDeclaration declaration).result := by
  intro kept
  obtain ⟨result, log⟩ := schemaOfDeclaration_of_named struct named
  refine ⟨⟨_, result, Table.names_ofList kept, Table.get?_ofList kept⟩, log, ?_⟩
  intro others namedOthers same
  have other := (@schemaOfDeclaration_of_named { declaration with fields := some others } others rfl
    namedOthers).1
  rw [other, result, ← filterMap_propertyOf_isKept others, same, filterMap_propertyOf_isKept]

/-- The statement at two fields of one name, between them an embedded field, a function, and a field
that the tag leaves out. -/
theorem schemaOfDeclaration_struct_collision :
    let first : Field := ⟨"A", .named "int", some (.plain "json:\"x\""), false⟩
    let base : Field := ⟨"Base", .named "Base", none, true⟩
    let function : Field := ⟨"F", .other "func()", some (.plain "json:\"x\""), false⟩
    let omitted : Field := ⟨"G", .named "bool", some (.plain "json:\"-\""), false⟩
    let second : Field :=
      ⟨"B", .pointer (.named "Part"), some (.plain "json:\"x,omitempty\""), false⟩
    let type (fields : List Field) : TypeDeclaration := { name := "T", fields := some fields }
    let whole := schemaOfDeclaration (type [first, base, function, omitted, second])
    (∃ table : Table Schema, whole.result = .ok (.object { properties := some table }) ∧
      table.names = [.plain "x"] ∧ table.get? (.plain "x") = some (.refTo "part")) ∧
    whole.log.map Event.shown = [(.debug, "Skipping embedded field Base of T"),
      (.warning, "Skipping field T.F: no schema for type func()")] ∧
    (schemaOfDeclaration (type [omitted, first, second])).result = whole.result := by
  intro first base function omitted second type whole
  have firstName : first.serialName = .ok (.plain "x") := eq_ok_of_toOption (by decide +kernel)
  have baseName : base.serialName = .ok (.plain "") := eq_ok_of_toOption (by decide +kernel)
  have functionName : function.serialName = .ok (.plain "x") :=
    eq_ok_of_toOption (by decide +kernel)
  have omittedName : omitted.serialName = .ok (.plain "") := eq_ok_of_toOption (by decide +kernel)
  have secondName : second.serialName = .ok (.plain "x") := eq_ok_of_toOption (by decide +kernel)
  let integer : Schema :=
    .primitive { type := some (.plain "integer"), format := some (.plain "int64") }
  have firstProperty : propertyOf first = some (.plain "x", integer) := by
    rw [propertyOf_of_serialName firstName]
    rfl
  have baseProperty : propertyOf base = none := by
    rw [propertyOf_of_serialName baseName, if_pos rfl]
  have functionProperty : propertyOf function = none := by
    rw [propertyOf_of_serialName functionName]
    rfl
  have omittedProperty : propertyOf omitted = none := by
    rw [propertyOf_of_serialName omittedName, if_pos rfl]
  have secondProperty : propertyOf second = some (.plain "x", .refTo "part") := by
    rw [propertyOf_of_serialName secondName]
    rfl
  have kept : [first, base, function, omitted, second].filterMap propertyOf =
      [(.plain "x", integer), (.plain "x", .refTo "part")] := by
    simp [firstProperty, baseProperty, functionProperty, omittedProperty, secondProperty]
  have named : ∀ field ∈ [first, base, function, omitted, second],
      ∃ name, field.serialName = .ok name := by
    simp [firstName, baseName, functionName, omittedName, secondName]
  obtain ⟨⟨table, result, names, values⟩, log, stays⟩ :=
    schemaOfDeclaration_struct (type _) _ rfl named
  rw [kept] at names values
  refine ⟨⟨table, result, names, values (.plain "x")⟩, log.trans (by decide +kernel), ?_⟩
  refine stays _ ?_ ?_
  · simp [firstName, omittedName, secondName]
  · simp [isKept, firstProperty, baseProperty, functionProperty, omittedProperty, secondProperty]

end GoApiDoc
