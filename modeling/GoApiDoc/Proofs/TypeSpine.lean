/-
This file says what the schema of a type is and when it comes back. Going inwards through pointers,
elements of sequences and values of maps there is one way, the spine, to one leaf. The leaf says
whether there is a schema, and the sequences and maps on the spine say what is wrapped around it;
pointers, lengths and the keys of maps leave no trace.

How deep such a schema lies is counted in steps. Every sequence and every map is one, a map below
nothing but sequences is one more because it needs surroundings of its own, and so does a primitive
value. A schema is written as long as its steps do not pass the limit. Reading takes a step more,
since what is written is the root and what is read is not, so at the limit itself a schema is
written that is not read back.
-/

import GoApiDoc.Proofs.References
import GoApiDoc.Proofs.SchemaReturn

namespace GoApiDoc

open Document Go Yaml

/-! ### Spines -/

/-- What a schema is wrapped in: an array of it, or an object with it for further properties. -/
inductive Wrapper
  | list
  | table
  deriving DecidableEq, Repr

/-- The schema with the wrapper around it. -/
def Wrapper.wrap : Wrapper → Schema → Schema
  | .list, items => .array { items }
  | .table, values => .object { additional := some (.described values) }

/-- The leaf with the wrappers around it, the first one outermost. -/
def wrapped (spine : List Wrapper) (leaf : Schema) : Schema :=
  spine.foldr Wrapper.wrap leaf

/-- The wrappers for the sequences and maps on the way to the leaf, from the outside in. -/
def Go.TypeRef.spine : TypeRef → List Wrapper
  | .pointer element => spine element
  | .sequence element _ => .list :: spine element
  | .mapping _ value => .table :: spine value
  | _ => []

/-- The types differ in nothing but pointers, lengths of sequences and keys of maps. -/
inductive Alike : TypeRef → TypeRef → Prop
  | same (type : TypeRef) : Alike type type
  | pointerLeft {element other : TypeRef} (inner : Alike element other) :
      Alike (.pointer element) other
  | pointerRight {type element : TypeRef} (inner : Alike type element) :
      Alike type (.pointer element)
  | sequence {element other : TypeRef} (length otherLength : Option String)
      (inner : Alike element other) :
      Alike (.sequence element length) (.sequence other otherLength)
  | mapping {value other : TypeRef} (key otherKey : TypeRef) (inner : Alike value other) :
      Alike (.mapping key value) (.mapping otherKey other)

theorem Alike.spine_leaf {first second : TypeRef} (alike : Alike first second) :
    first.spine = second.spine ∧ first.leaf = second.leaf := by
  induction alike with
  | same type => exact ⟨rfl, rfl⟩
  | pointerLeft _ inductionHypothesis => exact inductionHypothesis
  | pointerRight _ inductionHypothesis => exact inductionHypothesis
  | sequence length otherLength _ inductionHypothesis =>
    exact ⟨congrArg (Wrapper.list :: ·) inductionHypothesis.1, inductionHypothesis.2⟩
  | mapping key otherKey _ inductionHypothesis =>
    exact ⟨congrArg (Wrapper.table :: ·) inductionHypothesis.1, inductionHypothesis.2⟩

/-- The schema of a type is that of its leaf, wrapped along the spine. -/
theorem schemaOfType_eq_map (type : TypeRef) :
    schemaOfType type = (schemaOfType type.leaf).map (wrapped type.spine) := by
  induction type with
  | pointer element inductionHypothesis => exact inductionHypothesis
  | sequence element length inductionHypothesis =>
    rw [schemaOfType, inductionHypothesis, Option.map_map]
    rfl
  | mapping key value _ inductionHypothesis =>
    rw [schemaOfType, inductionHypothesis, Option.map_map]
    rfl
  | named name => rfl
  | qualified package name => rfl
  | other text => rfl

/-- A leaf without a schema, or one whose schema is that of its spelling. -/
theorem schemaOfType_leaf (type : TypeRef) :
    (∃ text, type.leaf = .other text) ∧ schemaOfType type.leaf = none ∨
      (¬ ∃ text, type.leaf = .other text) ∧
        schemaOfType type.leaf = some (schemaOfName type.leaf.spelling) := by
  induction type with
  | pointer element inductionHypothesis => exact inductionHypothesis
  | sequence element length inductionHypothesis => exact inductionHypothesis
  | mapping key value _ inductionHypothesis => exact inductionHypothesis
  | named name => exact Or.inr ⟨nofun, rfl⟩
  | qualified package name => exact Or.inr ⟨nofun, rfl⟩
  | other text => exact Or.inl ⟨⟨text, rfl⟩, rfl⟩

/-! ### Steps -/

namespace Document

/-- The steps that lead to a description of a kind. -/
def Standing.cost (standing : Standing) (kind : SchemaKind) : Nat :=
  if standing.covers kind then 1 else 2

/-- Where a schema stands that is inside a description of a kind. -/
def Standing.inside (standing : Standing) (kind : SchemaKind) : Standing :=
  if standing.covers kind then standing else .within kind

theorem Standing.cost_pos (standing : Standing) (kind : SchemaKind) : 0 < standing.cost kind := by
  unfold Standing.cost
  split <;> decide

/-- A schema has the room that the steps to it leave. -/
theorem Schema.codec_eq_layer (room : Nat) (standing : Standing) :
    Schema.codec room standing = Schema.layer fun kind =>
      if standing.cost kind ≤ room then
        some (room - standing.cost kind,
          Schema.codec (room - standing.cost kind) (standing.inside kind))
      else none := by
  cases room with
  | zero =>
    rw [Schema.codec]
    congr
    funext kind
    rw [if_neg (Nat.not_le.mpr (standing.cost_pos kind))]
  | succ room =>
    rw [Schema.codec]
    congr
    funext kind
    rw [Standing.cost, Standing.inside]
    split
    · rw [if_pos (Nat.le_add_left 1 room)]
      rfl
    · cases room with
      | zero => rfl
      | succ room =>
        rw [if_pos (Nat.le_add_left 2 room)]
        rfl

theorem Schema.codec_encode (room : Nat) (standing : Standing) (schema : Schema) :
    (Schema.codec room standing).encode schema =
      if standing.cost schema.kind ≤ room then
        schema.writtenAs (room - standing.cost schema.kind)
          (Schema.codec (room - standing.cost schema.kind) (standing.inside schema.kind))
      else .error .tooDeep := by
  rw [Schema.codec_eq_layer, Schema.layer_encode]
  split
  · next found =>
    split at found
    · nomatch found
    · rw [if_neg ‹_›]
  · next found =>
    split at found
    · obtain ⟨rfl, rfl⟩ := Prod.mk.inj (Option.some.inj found)
      rw [if_pos ‹_›]
    · nomatch found

theorem Schema.codec_decode {room : Nat} {standing : Standing} {value : Value} {schema : Schema}
    {kind : SchemaKind} (told : kindOf value = kind) :
    (Schema.codec room standing).decode value = .ok schema ↔
      schema.kind = kind ∧ standing.cost kind ≤ room ∧
        schema.ReadFrom (room - standing.cost kind)
          (Schema.codec (room - standing.cost kind) (standing.inside kind)) value := by
  rw [Schema.codec_eq_layer, Schema.layer_decode, told, eq_comm]
  refine and_congr_right fun same => ?_
  rw [same]
  split
  · next le => simp [le]
  · next less => simp [less]

/-! ### Wrappers -/

section

variable {room : Nat} {inner : Codec Schema}

/-- Nothing of the codec inside is looked at but what it writes of the items. -/
theorem ArrayShape.encode_items (items : Schema) :
    (ArrayShape.codec room inner).encode { items } =
      (inner.encode items).map fun tree => .object [("type", .str "array"), ("items", tree)] := by
  have only : (ArrayShape.codec room inner).encode { items } =
    (ArrayShape.codec room ⟨inner.decode, fun _ => inner.encode items⟩).encode { items } := rfl
  rw [only]
  cases inner.encode items <;> rfl

theorem ObjectShape.encode_additional (values : Schema) :
    (ObjectShape.codec room inner).encode { additional := some (.described values) } =
      (inner.encode values).map fun tree =>
        .object [("type", .str "object"), ("additionalProperties", tree)] := by
  have only : (ObjectShape.codec room inner).encode { additional := some (.described values) } =
    (ObjectShape.codec room ⟨inner.decode, fun _ => inner.encode values⟩).encode
      { additional := some (.described values) } := rfl
  rw [only]
  cases inner.encode values <;> rfl

theorem ArrayShape.decode_items {tree : Json} {shape : ArrayShape Schema} :
    let whole : Json := .object [("type", .str "array"), ("items", tree)]
    (ArrayShape.codec room inner).decode whole.toValue = .ok shape ↔
      ∃ items, inner.decode tree.toValue = .ok items ∧ shape = { items } := by
  intro whole
  have only : (ArrayShape.codec room inner).decode whole.toValue =
      (ArrayShape.codec room ⟨fun _ => inner.decode tree.toValue, inner.encode⟩).decode
        whole.toValue := by
    have opened := Json.entries?_toValue_object [("type", .str "array"), ("items", tree)]
    rw [ArrayShape.codec, ArrayShape.codec, Codec.record_decode opened, Codec.record_decode opened]
    rfl
  rw [only]
  cases inner.decode tree.toValue with
  | error refusal => exact ⟨nofun, nofun⟩
  | ok items =>
    constructor
    · exact fun read => ⟨items, rfl, (Except.ok.inj read).symm⟩
    · rintro ⟨_, ⟨⟩, rfl⟩
      rfl

/-- A mapping is no truth value, so it is a schema or nothing. -/
theorem ObjectShape.decode_additional {members : List (String × Json)}
    {shape : ObjectShape Schema} :
    let whole : Json :=
      .object [("type", .str "object"), ("additionalProperties", .object members)]
    (ObjectShape.codec room inner).decode whole.toValue = .ok shape ↔
      ∃ values, inner.decode (Json.object members).toValue = .ok values ∧
        shape = { additional := some (.described values) } := by
  intro whole
  have only : (ObjectShape.codec room inner).decode whole.toValue = (ObjectShape.codec room
      ⟨fun _ => inner.decode (Json.object members).toValue, inner.encode⟩).decode
        whole.toValue := by
    have opened := Json.entries?_toValue_object
      [("type", .str "object"), ("additionalProperties", .object members)]
    rw [ObjectShape.codec, ObjectShape.codec, Codec.record_decode opened,
      Codec.record_decode opened]
    rfl
  rw [only]
  cases inner.decode (Json.object members).toValue with
  | error refusal => exact ⟨nofun, nofun⟩
  | ok values =>
    constructor
    · exact fun read => ⟨values, rfl, (Except.ok.inj read).symm⟩
    · rintro ⟨_, ⟨⟩, rfl⟩
      rfl

end

end Document

/-! ### Leaves -/

/-- The schema is written as the tree, and nothing else is read from the tree, whatever room there
is. -/
structure IsLeaf (leaf : Schema) (tree : Json) : Prop where
  kind : kindOf tree.toValue = leaf.kind
  mapping : ∃ members, tree = .object members
  written : ∀ room inner, leaf.writtenAs room inner = .ok tree
  read : ∀ room inner schema, schema.kind = leaf.kind →
    (schema.ReadFrom room inner tree.toValue ↔ schema = leaf)

theorem isLeaf_refTo (name : String) :
    IsLeaf (.refTo name) (.object [("$ref", .str (.plain ("#/components/schemas/" ++ name)))]) where
  kind := rfl
  mapping := ⟨_, rfl⟩
  written _ _ := rfl
  read room inner schema kind := by
    cases schema with
    | ref target =>
      constructor
      · exact fun read => congrArg Schema.ref (Except.ok.inj read).symm
      · rintro ⟨⟩
        rfl
    | _ => simp [Schema.kind, Schema.refTo] at kind

/-- The tree of a primitive value of which nothing is said but its type and format. -/
def primitiveTree (type : String) (format : Option String) : Json :=
  .object (("type", .str (.plain type)) ::
    (format.map fun format => ("format", .str (.plain format))).toList)

theorem isLeaf_primitive {type : String} (format : Option String) (noArray : type ≠ "array")
    (noObject : type ≠ "object") :
    IsLeaf (.primitive { type := some (.plain type), format := format.map .plain })
      (primitiveTree type format) where
  kind := by
    have kind : kindOf (primitiveTree type format).toValue =
        if type == "array" then .array else if type == "object" then .object else .primitive := by
      cases format with
      | none => simp [primitiveTree, Json.toValue, Json.toEntries, kindOf, declaresType, Value.get?]
      | some format =>
        simp [primitiveTree, Json.toValue, Json.toEntries, kindOf, declaresType, Value.get?]
    rw [kind, if_neg (by simpa using noArray), if_neg (by simpa using noObject)]
    rfl
  mapping := ⟨_, rfl⟩
  written _ _ := by cases format <;> rfl
  read room inner schema kind := by
    cases schema with
    | primitive shape =>
      have read : (PrimitiveShape.codec room inner).decode (primitiveTree type format).toValue =
          .ok { type := some (.plain type), format := format.map .plain } := by
        cases format <;> rfl
      rw [Schema.ReadFrom, read, Except.ok.injEq, Schema.primitive.injEq, eq_comm]
    | _ => simp [Schema.kind] at kind

theorem exists_isLeaf (name : String) : ∃ tree, IsLeaf (schemaOfName name) tree := by
  have words : ∀ entry ∈ primitiveTypes, entry.2.1 ≠ "array" ∧ entry.2.1 ≠ "object" := by decide
  unfold schemaOfName
  split
  · next type format found =>
    obtain ⟨noArray, noObject⟩ := words _ (Table.mem_of_get? found)
    exact ⟨_, isLeaf_primitive format noArray noObject⟩
  · exact ⟨_, isLeaf_refTo _⟩

/-! ### Wrapped leaves -/

/-- The tree that a wrapper makes of the tree inside it. -/
def Wrapper.write : Wrapper → Json → Json
  | .list, tree => .object [("type", .str "array"), ("items", tree)]
  | .table, tree => .object [("type", .str "object"), ("additionalProperties", tree)]

/-- The tree of a leaf with the wrappers around it. -/
def written (spine : List Wrapper) (tree : Json) : Json :=
  spine.foldr Wrapper.write tree

/-- The kind of description that a wrapper makes. -/
def Wrapper.kind : Wrapper → SchemaKind
  | .list => .array
  | .table => .object

/-- The steps that lead to the leaf through the wrappers. -/
def stepsIn (standing : Standing) (leaf : SchemaKind) : List Wrapper → Nat
  | [] => standing.cost leaf
  | wrapper :: rest =>
    standing.cost wrapper.kind + stepsIn (standing.inside wrapper.kind) leaf rest

section

variable {leaf : Schema} {tree : Json}

theorem wrap_kind (wrapper : Wrapper) (schema : Schema) :
    (wrapper.wrap schema).kind = wrapper.kind := by
  cases wrapper <;> rfl

theorem kindOf_write (wrapper : Wrapper) (tree : Json) :
    kindOf (wrapper.write tree).toValue = wrapper.kind := by
  cases wrapper <;> rfl

theorem exists_members_written (isLeaf : IsLeaf leaf tree) (spine : List Wrapper) :
    ∃ members, written spine tree = .object members := by
  cases spine with
  | nil => exact isLeaf.mapping
  | cons wrapper rest => cases wrapper <;> exact ⟨_, rfl⟩

theorem kindOf_written (isLeaf : IsLeaf leaf tree) (spine : List Wrapper) :
    kindOf (written spine tree).toValue = (wrapped spine leaf).kind := by
  cases spine with
  | nil => exact isLeaf.kind
  | cons wrapper rest => exact (kindOf_write wrapper _).trans (wrap_kind wrapper _).symm

theorem wrap_writtenAs (room : Nat) (inner : Codec Schema) (wrapper : Wrapper) (schema : Schema) :
    (wrapper.wrap schema).writtenAs room inner = (inner.encode schema).map wrapper.write := by
  cases wrapper with
  | list => exact ArrayShape.encode_items schema
  | table => exact ObjectShape.encode_additional schema

theorem readFrom_write {room : Nat} {inner : Codec Schema} {wrapper : Wrapper} {tree : Json}
    {schema : Schema} (mapping : ∃ members, tree = .object members)
    (kind : schema.kind = wrapper.kind) :
    schema.ReadFrom room inner (wrapper.write tree).toValue ↔
      ∃ below, inner.decode tree.toValue = .ok below ∧ schema = wrapper.wrap below := by
  cases wrapper with
  | list =>
    cases schema with
    | array shape =>
      refine ArrayShape.decode_items.trans ?_
      simp [Wrapper.wrap]
    | _ => nomatch kind
  | table =>
    cases schema with
    | object shape =>
      obtain ⟨members, rfl⟩ := mapping
      refine ObjectShape.decode_additional.trans ?_
      simp [Wrapper.wrap]
    | _ => nomatch kind

/-- A wrapped leaf is written if there is room for its steps. -/
theorem encode_wrapped (isLeaf : IsLeaf leaf tree) (spine : List Wrapper) (room : Nat)
    (standing : Standing) :
    (Schema.codec room standing).encode (wrapped spine leaf) =
      if stepsIn standing leaf.kind spine ≤ room then .ok (written spine tree)
      else .error .tooDeep := by
  induction spine generalizing room standing with
  | nil =>
    have encode := Schema.codec_encode room standing leaf
    rw [isLeaf.written] at encode
    exact encode
  | cons wrapper rest inductionHypothesis =>
    have encode := Schema.codec_encode room standing (wrapper.wrap (wrapped rest leaf))
    rw [wrap_kind, wrap_writtenAs, inductionHypothesis] at encode
    refine encode.trans ?_
    rw [stepsIn]
    by_cases le : standing.cost wrapper.kind ≤ room
    · rw [if_pos le, apply_ite (Except.map wrapper.write)]
      exact if_congr (by omega) rfl rfl
    · rw [if_neg le, if_neg (by omega)]

/-- A wrapped leaf is read from what is written of it, and nothing else is, if there is room for its
steps. -/
theorem decode_written (isLeaf : IsLeaf leaf tree) (spine : List Wrapper) (room : Nat)
    (standing : Standing) (schema : Schema) :
    (Schema.codec room standing).decode (written spine tree).toValue = .ok schema ↔
      stepsIn standing leaf.kind spine ≤ room ∧ schema = wrapped spine leaf := by
  induction spine generalizing room standing schema with
  | nil =>
    refine (Schema.codec_decode isLeaf.kind).trans ?_
    constructor
    · rintro ⟨kind, le, read⟩
      exact ⟨le, (isLeaf.read _ _ schema kind).mp read⟩
    · rintro ⟨le, rfl⟩
      exact ⟨rfl, le, (isLeaf.read _ _ _ rfl).mpr rfl⟩
  | cons wrapper rest inductionHypothesis =>
    have mapping := exists_members_written isLeaf rest
    have told : kindOf (written (wrapper :: rest) tree).toValue = wrapper.kind :=
      kindOf_write wrapper _
    refine (Schema.codec_decode told).trans ?_
    rw [stepsIn]
    constructor
    · rintro ⟨kind, le, read⟩
      obtain ⟨below, readBelow, rfl⟩ := (readFrom_write mapping kind).mp read
      obtain ⟨leBelow, rfl⟩ := (inductionHypothesis _ _ _).mp readBelow
      exact ⟨by omega, rfl⟩
    · rintro ⟨le, rfl⟩
      have kind := wrap_kind wrapper (wrapped rest leaf)
      have readBelow := (inductionHypothesis (room - standing.cost wrapper.kind)
        (standing.inside wrapper.kind) (wrapped rest leaf)).mpr ⟨by omega, rfl⟩
      exact ⟨kind, by omega, (readFrom_write mapping kind).mpr ⟨_, readBelow, rfl⟩⟩

end

/-! ### Counting steps -/

/-- The steps that lead to the leaf of a schema that is written: one for each wrapper, one for the
surroundings of the first object below arrays, and one for a reference or two for a primitive
value. -/
def writingSteps (spine : List Wrapper) (leaf : SchemaKind) : Nat :=
  spine.length + (if spine.head? = some .list ∧ .table ∈ spine then 1 else 0) +
    Standing.alone.cost leaf

theorem stepsIn_inObject {leaf : SchemaKind} (isLeaf : leaf = .ref ∨ leaf = .primitive)
    (spine : List Wrapper) :
    stepsIn .inObject leaf spine = spine.length + Standing.alone.cost leaf := by
  induction spine with
  | nil => obtain rfl | rfl := isLeaf <;> rfl
  | cons wrapper rest inductionHypothesis =>
    have one : stepsIn .inObject leaf (wrapper :: rest) = 1 + stepsIn .inObject leaf rest := by
      cases wrapper <;> rfl
    rw [one, inductionHypothesis, List.length_cons]
    omega

theorem stepsIn_inArray {leaf : SchemaKind} (isLeaf : leaf = .ref ∨ leaf = .primitive)
    (spine : List Wrapper) :
    stepsIn .inArray leaf spine =
      spine.length + (if .table ∈ spine then 1 else 0) + Standing.alone.cost leaf := by
  induction spine with
  | nil => obtain rfl | rfl := isLeaf <;> rfl
  | cons wrapper rest inductionHypothesis =>
    cases wrapper with
    | list =>
      have one : stepsIn .inArray leaf (.list :: rest) = 1 + stepsIn .inArray leaf rest := rfl
      rw [one, inductionHypothesis, List.length_cons]
      simp only [List.mem_cons, reduceCtorEq, false_or]
      omega
    | table =>
      have two : stepsIn .inArray leaf (.table :: rest) = 2 + stepsIn .inObject leaf rest := rfl
      rw [two, stepsIn_inObject isLeaf, List.length_cons, if_pos List.mem_cons_self]
      omega

/-- The root takes one step, and makes the surroundings of its kind. -/
theorem writingSteps_cons {leaf : SchemaKind} (isLeaf : leaf = .ref ∨ leaf = .primitive)
    (wrapper : Wrapper) (rest : List Wrapper) :
    writingSteps (wrapper :: rest) leaf = 1 + stepsIn (.within wrapper.kind) leaf rest := by
  cases wrapper with
  | list =>
    have inside : Standing.within Wrapper.list.kind = .inArray := rfl
    rw [inside, stepsIn_inArray isLeaf, writingSteps, List.length_cons, List.head?_cons]
    simp only [true_and, List.mem_cons, reduceCtorEq, false_or]
    omega
  | table =>
    have inside : Standing.within Wrapper.table.kind = .inObject := rfl
    rw [inside, stepsIn_inObject isLeaf, writingSteps, List.length_cons, List.head?_cons]
    simp only [Option.some.injEq, reduceCtorEq, false_and, if_false]
    omega

/-- What is read is no root: what lies at the top of it takes two steps. -/
theorem stepsIn_alone {leaf : SchemaKind} (isLeaf : leaf = .ref ∨ leaf = .primitive)
    (wrapper : Wrapper) (rest : List Wrapper) :
    stepsIn .alone leaf (wrapper :: rest) = writingSteps (wrapper :: rest) leaf + 1 := by
  have two : stepsIn .alone leaf (wrapper :: rest) =
      2 + stepsIn (.within wrapper.kind) leaf rest := by
    cases wrapper <;> rfl
  rw [two, writingSteps_cons isLeaf]
  omega

/-! ### Writing and reading back -/

section

variable {leaf : Schema} {tree : Json}

theorem aloneCodec_encode_wrapped (isLeaf : IsLeaf leaf tree)
    (kind : leaf.kind = .ref ∨ leaf.kind = .primitive) (spine : List Wrapper) :
    Schema.aloneCodec.encode (wrapped spine leaf) =
      if writingSteps spine leaf.kind ≤ stepLimit then .ok (written spine tree)
      else .error .tooDeep := by
  cases spine with
  | nil =>
    have room : writingSteps [] leaf.kind ≤ stepLimit := by
      obtain kind | kind := kind <;> rw [kind] <;> decide
    rw [if_pos room]
    cases leaf with
    | ref target => exact isLeaf.written 0 .full
    | primitive shape => exact isLeaf.written 254 (Schema.codec 254 .inPrimitive)
    | _ => simp [Schema.kind] at kind
  | cons wrapper rest =>
    have root : Schema.aloneCodec.encode (wrapped (wrapper :: rest) leaf) =
        (wrapper.wrap (wrapped rest leaf)).writtenAs 254
          (Schema.codec 254 (.within wrapper.kind)) := by
      cases wrapper <;> rfl
    rw [root, wrap_writtenAs, encode_wrapped isLeaf, apply_ite (Except.map wrapper.write),
      writingSteps_cons kind]
    exact if_congr (by rw [stepLimit]; omega) rfl rfl

theorem aloneCodec_decode_written (isLeaf : IsLeaf leaf tree)
    (kind : leaf.kind = .ref ∨ leaf.kind = .primitive) (spine : List Wrapper) (schema : Schema) :
    Schema.aloneCodec.decode (written spine tree).toValue = .ok schema ↔
      writingSteps spine leaf.kind < stepLimit ∧ schema = wrapped spine leaf := by
  have steps : stepsIn .alone leaf.kind spine ≤ stepLimit ↔
      writingSteps spine leaf.kind < stepLimit := by
    cases spine with
    | nil => obtain kind | kind := kind <;> rw [kind] <;> decide
    | cons wrapper rest => rw [stepsIn_alone kind, Nat.succ_le_iff]
  rw [← steps]
  exact decode_written isLeaf spine stepLimit .alone schema

end

theorem kind_schemaOfName (name : String) :
    (schemaOfName name).kind = .ref ∨ (schemaOfName name).kind = .primitive := by
  unfold schemaOfName
  split
  · exact Or.inr rfl
  · exact Or.inl rfl

/-- A type has no schema exactly when its leaf is none of the types that have one. Any other has the
schema of its leaf, wrapped along the spine, whatever the pointers, lengths and keys are. It is not
written exactly when its steps pass the limit. What is written tells the variant of the schema, and
below the limit it is read as the schema; at the limit it is not read. -/
theorem schemaOfType_spine (type : TypeRef) :
    (schemaOfType type = none ↔ ∃ text, type.leaf = .other text) ∧
    ((¬ ∃ text, type.leaf = .other text) →
      schemaOfType type = some (wrapped type.spine (schemaOfName type.leaf.spelling))) ∧
    (∀ other, Alike type other → schemaOfType other = schemaOfType type) ∧
    ∀ schema, schemaOfType type = some schema →
      let steps := writingSteps type.spine (schemaOfName type.leaf.spelling).kind
      (stepLimit < steps → Schema.aloneCodec.encode schema = .error .tooDeep) ∧
      (steps ≤ stepLimit → ∃ tree, Schema.aloneCodec.encode schema = .ok tree ∧
        kindOf tree.toValue = schema.kind ∧
        ∀ read, Schema.aloneCodec.decode tree.toValue = .ok read ↔
          steps < stepLimit ∧ read = schema) := by
  have along := schemaOfType_eq_map type
  refine ⟨?_, ?_, ?_, ?_⟩
  · obtain ⟨otherLeaf, none⟩ | ⟨known, some⟩ := schemaOfType_leaf type
    · rw [along, none]
      exact iff_of_true rfl otherLeaf
    · rw [along, some]
      exact iff_of_false nofun known
  · intro known
    obtain ⟨otherLeaf, -⟩ | ⟨-, some⟩ := schemaOfType_leaf type
    · exact absurd otherLeaf known
    · rw [along, some, Option.map_some]
  · intro other alike
    obtain ⟨spine, leaf⟩ := alike.spine_leaf
    rw [along, schemaOfType_eq_map other, spine, leaf]
  · intro schema derived steps
    obtain ⟨-, none⟩ | ⟨-, some⟩ := schemaOfType_leaf type
    · rw [along, none] at derived
      nomatch derived
    rw [along, some] at derived
    obtain rfl := Option.some.inj derived
    obtain ⟨tree, isLeaf⟩ := exists_isLeaf type.leaf.spelling
    have kind := kind_schemaOfName type.leaf.spelling
    have encode := aloneCodec_encode_wrapped isLeaf kind type.spine
    constructor
    · intro deep
      rw [encode, if_neg (Nat.not_le.mpr deep)]
    · intro room
      refine ⟨written type.spine tree, by rw [encode, if_pos room], ?_, ?_⟩
      · exact kindOf_written isLeaf type.spine
      · exact aloneCodec_decode_written isLeaf kind type.spine

example :
    schemaOfType (.sequence (.mapping (.named "string") (.pointer (.named "Pet"))) none) =
      some (.array { items := .object { additional := some (.described (.refTo "pet")) } }) :=
  rfl

/-- A sequence of sequences of a type, three hundred deep, has a schema that is not written. -/
theorem deep_sequence_not_written :
    let type : TypeRef := Nat.repeat (fun type => .sequence type none) 300 (.named "int")
    ∃ schema, schemaOfType type = some schema ∧
      Schema.aloneCodec.encode schema = .error .tooDeep := by
  intro type
  have spine : type.spine = List.replicate 300 .list := by decide +kernel
  have leaf : type.leaf = .named "int" := by decide +kernel
  have derived := schemaOfType_eq_map type
  rw [spine, leaf] at derived
  obtain ⟨tree, isLeaf⟩ := exists_isLeaf "int"
  refine ⟨_, derived, ?_⟩
  rw [aloneCodec_encode_wrapped isLeaf (Or.inr rfl), if_neg (by decide +kernel)]

end GoApiDoc
