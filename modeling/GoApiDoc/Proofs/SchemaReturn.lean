/-
This file says how schemas come back. Every variant is told by its keys before anything in it is
read, so what is written of a schema has to have the keys of its variant and no others: a reference
is written with its own key alone, objects and arrays with the word for their type, and a primitive
value with a type that is neither word. The last is so because such a type comes from a text or a
number, and no number is written as a word.

A schema is followed down to a depth. Below it the form of a schema says nothing, which is enough
where there is no more room than that.
-/

import GoApiDoc.Document.Schema
import GoApiDoc.Proofs.Returning

namespace GoApiDoc.Document

open Yaml
open Go (bind_eq_ok map_eq_ok pure_eq_ok)

/-! ### Small parts -/

theorem ExternalDocs.sound : ExternalDocs.codec.Sound .exact :=
  Codec.sound_record
    (Fields.Sound.map .exact (.defaultedExact Codec.text_sound) (by intros; trivial)
      |>.seq (.optionalExact Codec.text_sound))
    (by decide) fun _ => rfl

theorem Xml.sound : Xml.codec.Sound .exact :=
  Codec.sound_record
    (Fields.Sound.map .exact (.optionalExact Codec.text_sound) (by intros; trivial)
      |>.seq (.optionalExact Codec.text_sound)
      |>.seq (.optionalExact Codec.text_sound)
      |>.seq (.optionalExact Codec.bool_sound)
      |>.seq (.optionalExact Codec.bool_sound))
    (by decide) fun _ => rfl

/-- Discriminators. -/
def Discriminator.form : Form Discriminator :=
  .total fun discriminator =>
    { discriminator with mapping := discriminator.mapping.map Form.exact.table.plain }

/-- The mapping of a discriminator is a table, so its names may change. -/
theorem Discriminator.sound : Discriminator.codec.Sound Discriminator.form :=
  Codec.sound_record
    (Fields.Sound.map Discriminator.form (.defaultedExact Codec.text_sound)
        (by intros; trivial)
      |>.seq (.optional Codec.text_sound.table fun _ _ _ _ _ _ => trivial))
    (by decide) fun _ => rfl

/-! ### Annotations -/

section

variable {σ : Type}

/-- What annotations hold comes back: free data are clean and schemas are proper. -/
structure Annotations.Proper (inner : Form σ) (annotations : Annotations σ) : Prop where
  sample : ∀ value ∈ annotations.sample, Form.freeField.proper value
  default : ∀ value ∈ annotations.default, Form.freeField.proper value
  enum : ∀ values ∈ annotations.enum, Form.free.list.proper values
  allOf : ∀ schemas ∈ annotations.allOf, inner.list.proper schemas
  oneOf : ∀ schemas ∈ annotations.oneOf, inner.list.proper schemas
  anyOf : ∀ schemas ∈ annotations.anyOf, inner.list.proper schemas
  negation : ∀ schema ∈ annotations.negation, inner.proper schema

/-- Annotations over schemas of a form. -/
def Annotations.form (inner : Form σ) : Form (Annotations σ) where
  proper := Annotations.Proper inner
  plain annotations := { annotations with
    sample := annotations.sample.map plainValue
    default := annotations.default.map plainValue
    enum := annotations.enum.map Form.free.list.plain
    discriminator := annotations.discriminator.map Discriminator.form.plain
    allOf := annotations.allOf.map inner.list.plain
    oneOf := annotations.oneOf.map inner.list.plain
    anyOf := annotations.anyOf.map inner.list.plain
    negation := annotations.negation.map inner.plain }

theorem Annotations.proper_empty (inner : Form σ) : Annotations.Proper inner {} := by
  constructor <;> exact nofun

/-- The keys of annotations. -/
def Annotations.keys : List Key :=
  ["title", "description", "nullable", ⟨"readOnly", "read_only"⟩, ⟨"writeOnly", "write_only"⟩,
    "deprecated", "example", "default", "enum", "discriminator", "xml",
    ⟨"externalDocs", "external_docs"⟩, ⟨"allOf", "all_of"⟩, ⟨"oneOf", "one_of"⟩,
    ⟨"anyOf", "any_of"⟩, ⟨"not", "not_"⟩]

/-- What the kinds of schemas share comes back if the schemas inside do. -/
theorem Annotations.sound {room : Nat} {inner : Codec σ} {form : Form σ} (le : room ≤ stepLimit)
    (sound : inner.Sound form) :
    Fields.Sound (Annotations.fields room inner) (Annotations.form form) Annotations.keys
      (Annotations.form form).plain (Annotations.Proper form) :=
  Fields.Sound.map (Annotations.form form) (.optionalExact Codec.text_sound)
      (by intros; constructor <;> assumption)
    |>.seq (.optionalExact Codec.text_sound)
    |>.seq (.optionalExact Codec.bool_sound)
    |>.seq (.optionalExact Codec.bool_sound)
    |>.seq (.optionalExact Codec.bool_sound)
    |>.seq (.optionalExact Codec.bool_sound)
    |>.seq (.free le fun _ proper => proper.sample)
    |>.seq (.free le fun _ proper => proper.default)
    |>.seq (.optional (Codec.anything_returns le).list fun _ proper => proper.enum)
    |>.seq (.optional Discriminator.sound.inner fun _ _ _ _ => trivial)
    |>.seq (.optionalExact Xml.sound.inner)
    |>.seq (.optionalExact ExternalDocs.sound.inner)
    |>.seq (.optional sound.list fun _ proper => proper.allOf)
    |>.seq (.optional sound.list fun _ proper => proper.oneOf)
    |>.seq (.optional sound.list fun _ proper => proper.anyOf)
    |>.seq (.optional sound fun _ proper => proper.negation)

/-! ### The variants -/

/-- A description of a primitive value over schemas of a form. -/
def PrimitiveShape.form (inner : Form σ) : Form (PrimitiveShape σ) where
  proper shape := Annotations.Proper inner shape.annotations
  plain shape := { shape with annotations := (Annotations.form inner).plain shape.annotations }

/-- The keys of the description of a primitive value. -/
def PrimitiveShape.keys : List Key :=
  Annotations.keys ++ [("type" : Key)] ++ [("format" : Key)]

theorem PrimitiveShape.sound {room : Nat} {inner : Codec σ} {form : Form σ} (le : room ≤ stepLimit)
    (sound : inner.Sound form) :
    (PrimitiveShape.codec room inner).Sound (PrimitiveShape.form form) ∧
      (PrimitiveShape.codec room inner).WritesKeys PrimitiveShape.keys :=
  Codec.sound_record_keys
    (Fields.Sound.map (PrimitiveShape.form form) (.part (Annotations.sound le sound) fun _ => id)
        (fun _ proper _ _ _ _ => proper)
      |>.seq (.optionalExact Codec.text_sound)
      |>.seq (.optionalExact Codec.text_sound))
    (by decide) fun _ => rfl

/-- What further properties are, over schemas of a form. -/
def Additional.form (inner : Form σ) : Form (Additional σ) where
  proper
    | .described schema => inner.proper schema
    | .allowed _ => True
  plain
    | .described schema => .described (inner.plain schema)
    | .allowed value => .allowed value

/-- The codec reads mappings and nothing else. -/
def Codec.ReadsMaps (codec : Codec σ) : Prop :=
  ∀ value part, codec.decode value = .ok part → ∃ entries, value = .map entries

theorem Codec.record_readsMaps (fields : Fields σ σ) : (Codec.record fields).ReadsMaps := by
  intro value part read
  cases value with
  | map entries => exact ⟨entries, rfl⟩
  | _ => nomatch read

/-- A truth value is no schema, so it is read as what it was written for. -/
theorem Additional.sound {inner : Codec σ} {form : Form σ} (sound : inner.Sound form)
    (maps : inner.ReadsMaps) : (Additional.codec inner).Sound (Additional.form form) where
  reads {value part} clean read := by
    simp only [Additional.codec] at read
    split at read
    · next schema readSchema =>
      obtain rfl := Except.ok.inj read
      exact sound.reads clean readSchema
    · split at read
      · obtain rfl := Except.ok.inj read
        exact trivial
      · nomatch read
  back {part tree} proper written := by
    cases part with
    | described schema =>
      have readBack := sound.back proper written
      simp only [Additional.codec, readBack]
      rfl
    | allowed value =>
      obtain rfl := Except.ok.inj written
      simp only [Additional.codec]
      split
      · next schema readSchema =>
        obtain ⟨entries, same⟩ := maps _ _ readSchema
        nomatch same
      · rfl
  again {part tree} proper written := by
    cases part with
    | described schema => exact sound.again proper written
    | allowed value => exact written
  faults {part fault} proper failed := by
    cases part with
    | described schema => exact sound.faults proper failed
    | allowed value => nomatch failed
  present {part tree} written := by
    cases part with
    | described schema => exact sound.present written
    | allowed value =>
      obtain rfl := Except.ok.inj written
      exact nofun

/-- What the description of an object holds comes back. -/
structure ObjectShape.Proper (inner : Form σ) (shape : ObjectShape σ) : Prop where
  annotations : Annotations.Proper inner shape.annotations
  properties : ∀ properties ∈ shape.properties, inner.table.proper properties
  additional : ∀ additional ∈ shape.additional, (Additional.form inner).proper additional

/-- A description of an object over schemas of a form. -/
def ObjectShape.form (inner : Form σ) : Form (ObjectShape σ) where
  proper := ObjectShape.Proper inner
  plain shape := { shape with
    annotations := (Annotations.form inner).plain shape.annotations
    properties := shape.properties.map inner.table.plain
    additional := shape.additional.map (Additional.form inner).plain }

/-- The keys of the description of an object. -/
def ObjectShape.keys : List Key :=
  Annotations.keys ++ [("type" : Key)] ++ [("properties" : Key)] ++
    [⟨"additionalProperties", "additional_properties"⟩] ++ [("required" : Key)]

/-- What further properties hold is a schema or a truth value, so schemas have to be mappings. -/
theorem ObjectShape.sound {room : Nat} {inner : Codec σ} {form : Form σ} (le : room ≤ stepLimit)
    (sound : inner.Sound form) (maps : inner.ReadsMaps) :
    (ObjectShape.codec room inner).Sound (ObjectShape.form form) ∧
      (ObjectShape.codec room inner).WritesKeys ObjectShape.keys :=
  Codec.sound_record_keys
    (Fields.Sound.map (ObjectShape.form form)
        (.part (Annotations.sound le sound) fun _ proper => proper.annotations)
        (by intros; constructor <;> assumption)
      |>.seq (.defaultedExact (Codec.literal_sound "object"))
      |>.seq (.optional sound.table fun _ proper => proper.properties)
      |>.seq (.optional (Additional.sound sound maps) fun _ proper => proper.additional)
      |>.seq (.optionalExact Codec.text_sound.exactList))
    (by decide) fun _ => rfl

/-- What the description of an array holds comes back. -/
structure ArrayShape.Proper (inner : Form σ) (shape : ArrayShape σ) : Prop where
  annotations : Annotations.Proper inner shape.annotations
  items : inner.proper shape.items

/-- A description of an array over schemas of a form. -/
def ArrayShape.form (inner : Form σ) : Form (ArrayShape σ) where
  proper := ArrayShape.Proper inner
  plain shape := {
    annotations := (Annotations.form inner).plain shape.annotations
    items := inner.plain shape.items }

/-- The keys of the description of an array. -/
def ArrayShape.keys : List Key :=
  Annotations.keys ++ [("type" : Key)] ++ [("items" : Key)]

theorem ArrayShape.sound {room : Nat} {inner : Codec σ} {form : Form σ} (le : room ≤ stepLimit)
    (sound : inner.Sound form) :
    (ArrayShape.codec room inner).Sound (ArrayShape.form form) ∧
      (ArrayShape.codec room inner).WritesKeys ArrayShape.keys :=
  Codec.sound_record_keys
    (Fields.Sound.map (ArrayShape.form form)
        (.part (Annotations.sound le sound) fun _ proper => proper.annotations)
        (by intros; constructor <;> assumption)
      |>.seq (.defaultedExact (Codec.literal_sound "array"))
      |>.seq (.required sound.toReturns fun _ proper => proper.items))
    (by decide) fun _ => rfl

theorem refCodec_sound : refCodec.Sound .exact :=
  Codec.sound_record (.required Codec.text_sound.toReturns fun _ _ => trivial) (by decide)
    fun _ => rfl

end

/-! ### Texts of numbers -/

/-- The characters of which the texts of finite numbers are made. -/
def numeral (char : Char) : Bool :=
  char.isDigit || ['-', '+', '.', 'e'].contains char

/-- The text is made of the characters of numbers. -/
def Numeric (text : Text) : Prop :=
  ∀ point ∈ text.points, ∃ char, point = .char char ∧ numeral char

theorem numeric_plain {text : String} :
    Numeric text ↔ ∀ char ∈ text.toList, numeral char := by
  rw [Numeric, Text.points_plain, List.forall_mem_map]
  refine forall₂_congr fun char _ => ⟨?_, fun fine => ⟨char, rfl, fine⟩⟩
  rintro ⟨other, same, fine⟩
  exact Point.char.inj same ▸ fine

theorem numeral_of_mem_toDigits {number : Nat} {char : Char}
    (member : char ∈ Nat.toDigits 10 number) : numeral char := by
  rw [numeral, Nat.isDigit_of_mem_toDigits (by decide) (by decide) member, Bool.true_or]

theorem numeric_int (number : Int) : Numeric ↑(toString number) := by
  refine numeric_plain.mpr fun char member => ?_
  rw [Int.toString_eq_repr] at member
  cases number with
  | ofNat number =>
    rw [Int.repr, Nat.repr, String.toList_ofList] at member
    exact numeral_of_mem_toDigits member
  | negSucc number =>
    rw [Int.repr, Nat.repr, String.toList_append, List.mem_append] at member
    obtain member | member := member
    · obtain rfl := List.mem_singleton.mp member
      rfl
    · rw [String.toList_ofList] at member
      exact numeral_of_mem_toDigits member

section

open Decimal Double

theorem numeral_of_mem_shortest {significand : Nat} {exponent : Int} {char : Char}
    (member : char ∈ (shortest significand exponent).1) : numeral char := by
  unfold shortest at member
  exact numeral_of_mem_toDigits (List.mem_reverse.mp ((List.dropWhile_sublist _).mem
    (List.mem_reverse.mp member)))

theorem numeral_of_mem_twoDigits {number : Nat} {char : Char} (member : char ∈ twoDigits number) :
    numeral char := by
  unfold twoDigits at member
  simp only at member
  split at member
  · obtain rfl | member := List.mem_cons.mp member
    · rfl
    · exact numeral_of_mem_toDigits member
  · exact numeral_of_mem_toDigits member

/-- A layout of digits adds a point, zeros and an exponent. -/
theorem numeral_of_mem_layout {digits : List Char} {point : Int}
    (each : ∀ char ∈ digits, numeral char) {char : Char} (member : char ∈ layout digits point) :
    numeral char := by
  have zeros : ∀ count, ∀ char ∈ List.replicate count '0', numeral char := by
    intro count char member
    rw [(List.mem_replicate.mp member).2]
    rfl
  unfold layout at member
  split at member
  · split at member
    · simp only [List.cons_append, List.mem_cons, List.mem_append] at member
      obtain rfl | rfl | member | member := member
      · rfl
      · rfl
      · exact zeros _ _ member
      · exact each _ member
    · simp only [List.mem_append, List.mem_cons] at member
      obtain (member | member) | rfl | member := member
      · exact each _ (List.mem_of_mem_take member)
      · exact zeros _ _ member
      · rfl
      · split at member
        · obtain rfl := List.mem_singleton.mp member
          rfl
        · exact each _ (List.mem_of_mem_drop member)
  · simp only [List.mem_append, List.mem_cons] at member
    obtain member | rfl | sign | member := member
    · split at member
      · simp only [List.mem_cons] at member each
        obtain rfl | rfl | member := member
        · exact each _ (Or.inl rfl)
        · rfl
        · exact each _ (Or.inr member)
      · exact each _ member
    · rfl
    · split at sign
      · rw [sign]
        rfl
      · rw [sign]
        rfl
    · exact numeral_of_mem_twoDigits member

/-- The text of a number that is finite has nothing but numerals. -/
theorem numeric_double {number : Double} (finite : number.isFinite) : Numeric ↑number.text := by
  refine numeric_plain.mpr fun char member => ?_
  cases number with
  | nan => nomatch finite
  | infinite negative => nomatch finite
  | finite negative significand exponent =>
    have sign : ∀ char ∈ if negative then ['-'] else [], numeral char := by
      cases negative with
      | true => exact List.all_eq_true.mp rfl
      | false => exact nofun
    simp only [text] at member
    split at member
    · rw [String.toList_ofList, List.mem_append] at member
      obtain member | member := member
      · exact sign char member
      · exact List.all_eq_true.mp rfl char member
    · rw [String.toList_ofList, List.mem_append] at member
      obtain member | member := member
      · exact sign char member
      · exact numeral_of_mem_layout (fun _ => numeral_of_mem_shortest) member

end

/-- A clean value that is read as text is that text, or a number, whose text is no word. -/
theorem text_decode_cases {value : Value} {text : Text} (clean : value.clean)
    (read : Codec.text.decode value = .ok text) : value = .str text ∨ Numeric text := by
  cases value with
  | str found => exact Or.inl (congrArg Value.str (Except.ok.inj read))
  | int number =>
    simp only [Codec.text, numberText] at read
    split at read
    · rw [← Except.ok.inj read]
      exact Or.inr (numeric_int number)
    · nomatch read
  | float number =>
    rw [← Except.ok.inj read]
    exact Or.inr (numeric_double clean)
  | nan node => nomatch clean
  | bytes found => nomatch clean
  | _ => nomatch read

/-! ### Schemas -/

/-- Schemas over schemas of a form. The type of a primitive value is not the type of another
variant. -/
def Schema.layerForm (inner : Form Schema) : Form Schema where
  proper
    | .ref _ => True
    | .object shape => (ObjectShape.form inner).proper shape
    | .array shape => (ArrayShape.form inner).proper shape
    | .primitive shape => (PrimitiveShape.form inner).proper shape ∧
        shape.type ≠ some "array" ∧ shape.type ≠ some "object"
  plain
    | .ref target => .ref target
    | .object shape => .object ((ObjectShape.form inner).plain shape)
    | .array shape => .array ((ArrayShape.form inner).plain shape)
    | .primitive shape => .primitive ((PrimitiveShape.form inner).plain shape)

/-- Schemas, followed down to a depth. -/
def Schema.form : Nat → Form Schema
  | 0 => Schema.layerForm .exact
  | depth + 1 => Schema.layerForm (form depth)

/-- A schema is proper at every depth if it is in a layer over whatever has the schemas that are
proper at every depth. -/
theorem Schema.proper_of_layers {schema : Schema}
    (layers : ∀ inner : Form Schema,
      (∀ below, (∀ depth, (Schema.form depth).proper below) → inner.proper below) →
      (Schema.layerForm inner).proper schema) (depth : Nat) :
    (Schema.form depth).proper schema := by
  cases depth with
  | zero => exact layers .exact fun _ _ => trivial
  | succ depth => exact layers (Schema.form depth) fun _ proper => proper depth

/-- Plain data do not change the kind of a schema. -/
theorem Schema.kind_plain_layer (inner : Form Schema) (schema : Schema) :
    ((Schema.layerForm inner).plain schema).kind = schema.kind := by
  cases schema with
  | ref target => rfl
  | object shape => rfl
  | array shape => rfl
  | primitive shape => rfl

/-- The value is read as the schema, by the codec of its variant. -/
def Schema.ReadFrom (room : Nat) (inner : Codec Schema) (value : Value) : Schema → Prop
  | .ref target => refCodec.decode value = .ok target
  | .object shape => (ObjectShape.codec room inner).decode value = .ok shape
  | .array shape => (ArrayShape.codec room inner).decode value = .ok shape
  | .primitive shape => (PrimitiveShape.codec room inner).decode value = .ok shape

theorem Schema.layer_decode {below : SchemaKind → Option (Nat × Codec Schema)} {value : Value}
    {schema : Schema} :
    (Schema.layer below).decode value = .ok schema ↔
      kindOf value = schema.kind ∧ ∃ room inner, below schema.kind = some (room, inner) ∧
        schema.ReadFrom room inner value := by
  simp only [Schema.layer, Decoded.under_eq_ok]
  constructor
  · intro read
    split at read
    · nomatch read
    · next kind found =>
      obtain ⟨target, readTarget, rfl⟩ := map_eq_ok.mp read
      exact ⟨kind, _, _, (congrArg below kind).symm.trans found, readTarget⟩
    · next kind found =>
      obtain ⟨shape, readShape, rfl⟩ := map_eq_ok.mp read
      exact ⟨kind, _, _, (congrArg below kind).symm.trans found, readShape⟩
    · next kind found =>
      obtain ⟨shape, readShape, rfl⟩ := map_eq_ok.mp read
      exact ⟨kind, _, _, (congrArg below kind).symm.trans found, readShape⟩
    · next kind found =>
      obtain ⟨shape, readShape, rfl⟩ := map_eq_ok.mp read
      exact ⟨kind, _, _, (congrArg below kind).symm.trans found, readShape⟩
  · rintro ⟨kind, room, inner, found, read⟩
    rw [kind]
    cases schema with
    | ref target =>
      simp only [Schema.kind] at found
      simp only [Schema.kind, found]
      exact map_eq_ok.mpr ⟨target, read, rfl⟩
    | object shape =>
      simp only [Schema.kind] at found
      simp only [Schema.kind, found]
      exact map_eq_ok.mpr ⟨shape, read, rfl⟩
    | array shape =>
      simp only [Schema.kind] at found
      simp only [Schema.kind, found]
      exact map_eq_ok.mpr ⟨shape, read, rfl⟩
    | primitive shape =>
      simp only [Schema.kind] at found
      simp only [Schema.kind, found]
      exact map_eq_ok.mpr ⟨shape, read, rfl⟩

/-- How the schema is written, by the codec of its variant. -/
def Schema.writtenAs (room : Nat) (inner : Codec Schema) : Schema → Except EncodeFault Json
  | .ref target => refCodec.encode target
  | .object shape => (ObjectShape.codec room inner).encode shape
  | .array shape => (ArrayShape.codec room inner).encode shape
  | .primitive shape => (PrimitiveShape.codec room inner).encode shape

theorem Schema.layer_encode (below : SchemaKind → Option (Nat × Codec Schema)) (schema : Schema) :
    (Schema.layer below).encode schema =
      match below schema.kind with
      | none => .error .tooDeep
      | some (room, inner) => schema.writtenAs room inner := by
  simp only [Schema.layer]
  cases found : below schema.kind with
  | none => cases schema <;> rfl
  | some found => cases schema <;> rfl

/-! ### The variant of what is written -/

/-- Nothing is written under a name that is not among the keys. -/
theorem Codec.WritesKeys.get? {Part : Type} {codec : Codec Part} {keys : List Key}
    (writes : codec.WritesKeys keys) {part : Part} {members : List (String × Json)}
    (written : codec.encode part = .ok (.object members)) (name : String)
    (foreign : ∀ key ∈ keys, key.name ≠ name) :
    Value.get? name (Json.toEntries members) = none := by
  obtain ⟨others, same, named⟩ := writes part _ written
  obtain rfl := Json.object.inj same
  refine get?_toEntries_eq_none fun member inside => ?_
  obtain ⟨key, known, sameName⟩ := named member inside
  rw [sameName]
  exact foreign key known

section

variable {room : Nat} {inner : Codec Schema} {form : Form Schema}

/-- The word for the type is found behind fields that have other names. -/
theorem get?_type_of_fixed {Record Rest : Type} {front : Fields Record (Unit → Rest)}
    {word : String} {record : Record} {members : List (String × Json)}
    (foreign : ∀ found, front.encode record = .ok found → ∀ member ∈ found, member.1 ≠ "type")
    (written : (front <*> Fields.defaulted "type" (Codec.literal word) () fun _ => ()).encode
      record = .ok members) :
    Value.get? "type" (Json.toEntries members) = some (.str (.plain word)) := by
  obtain ⟨found, own, writtenFound, writtenOwn, rfl⟩ := Fields.seq_encode.mp written
  obtain ⟨tree, writtenWord, rfl⟩ := Fields.single_eq_ok.mp writtenOwn
  obtain rfl := Except.ok.inj writtenWord
  rw [get?_toEntries_append, get?_toEntries_eq_none (foreign found writtenFound)]
  rfl

/-- Members put behind others do not hide them. -/
theorem get?_or_of_some {name : String} {first second : List (String × Json)} {value : Value}
    (found : Value.get? name (Json.toEntries first) = some value) :
    Value.get? name (Json.toEntries (first ++ second)) = some value := by
  rw [get?_toEntries_append, found, Option.some_or]

/-- No annotation is written under the name of the type. -/
theorem Annotations.name_ne_type (le : room ≤ stepLimit) (sound : inner.Sound form)
    {annotations : Annotations Schema} {members : List (String × Json)}
    (written : (Annotations.fields room inner).encode annotations = .ok members) :
    ∀ member ∈ members, member.1 ≠ "type" := by
  intro member inside
  obtain ⟨key, known, same⟩ := (Annotations.sound le sound).named written member inside
  have foreign : ∀ key ∈ Annotations.keys, key.name ≠ "type" := by decide
  rw [same]
  exact foreign key known

theorem kindOf_written_ref {target : Text} {tree : Json}
    (written : refCodec.encode target = .ok tree) : kindOf tree.toValue = .ref := by
  obtain ⟨members, writtenFields, rfl⟩ := Codec.record_encode.mp written
  obtain ⟨own, writtenOwn, rfl⟩ := Fields.single_eq_ok.mp writtenFields
  rfl

/-- What is written of an object is told by its type or its properties. -/
theorem kindOf_written_object (le : room ≤ stepLimit) (sound : inner.Sound form)
    (maps : inner.ReadsMaps) {shape : ObjectShape Schema} {tree : Json}
    (written : (ObjectShape.codec room inner).encode shape = .ok tree) :
    kindOf tree.toValue = .object := by
  have writes := (ObjectShape.sound le sound maps).2
  obtain ⟨members, writtenFields, rfl⟩ := Codec.record_encode.mp written
  have type : Value.get? "type" (Json.toEntries members) = some (.str "object") := by
    obtain ⟨_, _, four, -, rfl⟩ := Fields.seq_encode.mp writtenFields
    obtain ⟨_, _, three, -, rfl⟩ := Fields.seq_encode.mp four
    obtain ⟨_, _, two, -, rfl⟩ := Fields.seq_encode.mp three
    refine get?_or_of_some (get?_or_of_some (get?_or_of_some ?_))
    exact get?_type_of_fixed (fun _ => Annotations.name_ne_type le sound) two
  have reference := writes.get? written "$ref" (by decide)
  have alternative := writes.get? written "ref" (by decide)
  simp [Json.toValue, kindOf, declaresType, reference, alternative, type]

/-- What is written of an array is told by its type. -/
theorem kindOf_written_array (le : room ≤ stepLimit) (sound : inner.Sound form)
    {shape : ArrayShape Schema} {tree : Json}
    (written : (ArrayShape.codec room inner).encode shape = .ok tree) :
    kindOf tree.toValue = .array := by
  have writes := (ArrayShape.sound le sound).2
  obtain ⟨members, writtenFields, rfl⟩ := Codec.record_encode.mp written
  have type : Value.get? "type" (Json.toEntries members) = some (.str "array") := by
    obtain ⟨_, _, two, -, rfl⟩ := Fields.seq_encode.mp writtenFields
    exact get?_or_of_some
      (get?_type_of_fixed (fun _ => Annotations.name_ne_type le sound) two)
  have reference := writes.get? written "$ref" (by decide)
  have alternative := writes.get? written "ref" (by decide)
  simp [Json.toValue, kindOf, declaresType, reference, alternative, type]

/-- The type of a primitive value is read from the entry of that name. -/
theorem PrimitiveShape.decode_type {value : Value} {entries : List (Value × Value)}
    {shape : PrimitiveShape Schema} (opened : value.entries? = some entries)
    (read : (PrimitiveShape.codec room inner).decode value = .ok shape) :
    (Fields.optional "type" Codec.text fun shape : PrimitiveShape Schema => shape.type).decode
      entries = .ok shape.type := by
  simp only [PrimitiveShape.codec, Codec.record, opened] at read
  obtain ⟨_, _, readTwo, -, rfl⟩ := Fields.seq_decode.mp read
  obtain ⟨_, _, readOne, readType, rfl⟩ := Fields.seq_decode.mp readTwo
  obtain ⟨_, -, rfl⟩ := Fields.map_decode.mp readOne
  exact readType

/-- A primitive has the type that its mapping names. -/
theorem PrimitiveShape.type_of_entry {value : Value} {entries : List (Value × Value)}
    {shape : PrimitiveShape Schema} {word : Text} (opened : value.entries? = some entries)
    (read : (PrimitiveShape.codec room inner).decode value = .ok shape)
    (found : Value.get? "type" entries = some (.str word)) : shape.type = some word := by
  have readType := PrimitiveShape.decode_type opened read
  simp only [Fields.optional, Key.find?, found] at readType
  exact (Except.ok.inj readType).symm

theorem PrimitiveShape.entry_of_type {value : Value} {entries : List (Value × Value)}
    {shape : PrimitiveShape Schema} {text : Text} (opened : value.entries? = some entries)
    (read : (PrimitiveShape.codec room inner).decode value = .ok shape)
    (typed : shape.type = some text) :
    ∃ part, Value.get? "type" entries = some part ∧ Codec.text.decode part = .ok text := by
  have readType := PrimitiveShape.decode_type opened read
  rw [typed] at readType
  cases found : Value.get? "type" entries with
  | none =>
    simp only [Fields.optional, Key.find?, found] at readType
    cases readType
  | some part =>
    simp only [Fields.optional, Key.find?, found] at readType
    split at readType
    · cases readType
    · cases readType
    · next name other _ own =>
      obtain ⟨-, rfl⟩ := Prod.mk.inj (Option.some.inj own)
      obtain ⟨found, readText, same⟩ := map_eq_ok.mp readType
      rw [← Option.some.inj same]
      exact ⟨_, rfl, Decoded.under_eq_ok.mp readText⟩

/-- A value that is told to be primitive does not declare the type of another variant. -/
theorem declaresType_of_primitive {entries : List (Value × Value)}
    (kind : kindOf (.map entries) = .primitive) :
    declaresType "array" entries = false ∧ declaresType "object" entries = false := by
  simp only [kindOf] at kind
  split at kind
  · nomatch kind
  · split at kind
    · nomatch kind
    · next noArray =>
      split at kind
      · nomatch kind
      · next noObject =>
        simp only [Bool.or_eq_true, not_or] at noObject
        exact ⟨Bool.eq_false_iff.mpr noArray, Bool.eq_false_iff.mpr noObject.1.1⟩

/-- Opening a mapping does not show in the type that it declares. -/
theorem declaresType_withOuterEntries (word : String) (mapping entries : List (Value × Value)) :
    declaresType word (Value.withOuterEntries (.map mapping) 0 entries) =
      declaresType word entries := by
  rw [declaresType, declaresType, Value.get?_withOuterEntries]
  cases Value.get? "type" entries with
  | none => rfl
  | some value =>
    cases value with
    | outer height =>
      by_cases here : height = 0
      · rw [here]
        rfl
      · rw [Option.map_some, Value.withOuter, if_neg here]
    | _ => rfl

/-- The type that is read is no word, unless the entry has it. -/
theorem PrimitiveShape.type_ne_of_decode {entries : List (Value × Value)}
    {shape : PrimitiveShape Schema} {word : String} (clean : (Value.map entries).clean)
    (read : (PrimitiveShape.codec room inner).decode (.map entries) = .ok shape)
    (wordy : ¬ Numeric word) (undeclared : declaresType word entries = false) :
    shape.type ≠ some (.plain word) := by
  intro typed
  have opened : (Value.map entries).entries? = some _ := rfl
  obtain ⟨value, found, readText⟩ := PrimitiveShape.entry_of_type opened read typed
  have cleanOpened := Value.cleanEntries_of_entries? clean opened
  obtain rfl | numeric := text_decode_cases (Fields.clean_of_get? cleanOpened found) readText
  · rw [← declaresType_withOuterEntries word entries, declaresType, found] at undeclared
    simp at undeclared
  · exact wordy numeric

theorem not_numeric_array : ¬ Numeric ↑"array" := fun numeric =>
  Bool.false_ne_true (numeric_plain.mp numeric 'a' (by decide))

theorem not_numeric_object : ¬ Numeric ↑"object" := fun numeric =>
  Bool.false_ne_true (numeric_plain.mp numeric 'o' (by decide))

/-- A primitive is told by what is missing: it has no entry that tells another kind. -/
theorem kindOf_written_primitive (le : room ≤ stepLimit) (sound : inner.Sound form)
    {shape : PrimitiveShape Schema} {tree : Json} (proper : (PrimitiveShape.form form).proper shape)
    (noArray : shape.type ≠ some "array") (noObject : shape.type ≠ some "object")
    (written : (PrimitiveShape.codec room inner).encode shape = .ok tree) :
    kindOf tree.toValue = .primitive := by
  obtain ⟨returns, writes⟩ := PrimitiveShape.sound le sound
  have readBack := returns.back proper written
  obtain ⟨members, writtenFields, rfl⟩ := Codec.record_encode.mp written
  have undeclared : ∀ word : String, shape.type ≠ some (.plain word) →
      declaresType word (Json.toEntries members) = false := by
    intro word other
    unfold declaresType
    split
    · next text found =>
      have typed : ((PrimitiveShape.form form).plain shape).type = some text :=
        PrimitiveShape.type_of_entry (Json.entries?_toValue_object members) readBack found
      have typed : shape.type = some text := typed
      rw [typed] at other
      exact beq_eq_false_iff_ne.mpr fun same => other (congrArg some same)
    · rfl
  have reference := writes.get? written "$ref" (by decide)
  have alternative := writes.get? written "ref" (by decide)
  have properties := writes.get? written "properties" (by decide)
  have additional := writes.get? written "additionalProperties" (by decide)
  simp [Json.toValue, kindOf, reference, alternative, properties, additional,
    undeclared "array" noArray, undeclared "object" noObject]

/-! ### The layers -/

/-- What is known of the schemas inside makes known what is written of a schema. -/
theorem Schema.return_of_written (le : room ≤ stepLimit) (sound : inner.Sound form)
    (maps : inner.ReadsMaps) {schema : Schema} {tree : Json}
    (proper : (Schema.layerForm form).proper schema)
    (written : schema.writtenAs room inner = .ok tree) :
    kindOf tree.toValue = schema.kind ∧
      ((Schema.layerForm form).plain schema).ReadFrom room inner tree.toValue ∧
      ((Schema.layerForm form).plain schema).writtenAs room inner = .ok tree := by
  cases schema with
  | ref target => exact ⟨kindOf_written_ref written, refCodec_sound.back trivial written, written⟩
  | object shape =>
    have returns := (ObjectShape.sound le sound maps).1
    exact ⟨kindOf_written_object le sound maps written, returns.back proper written,
      returns.again proper written⟩
  | array shape =>
    have returns := (ArrayShape.sound le sound).1
    exact ⟨kindOf_written_array le sound written, returns.back proper written,
      returns.again proper written⟩
  | primitive shape =>
    have returns := (PrimitiveShape.sound le sound).1
    obtain ⟨proper, noArray, noObject⟩ := proper
    exact ⟨kindOf_written_primitive le sound proper noArray noObject written,
      returns.back proper written, returns.again proper written⟩

theorem Schema.fault_of_written (le : room ≤ stepLimit) (sound : inner.Sound form)
    (maps : inner.ReadsMaps) {schema : Schema} {fault : EncodeFault}
    (proper : (Schema.layerForm form).proper schema)
    (failed : schema.writtenAs room inner = .error fault) : fault ≠ .notUnicode := by
  cases schema with
  | ref target => exact refCodec_sound.faults trivial failed
  | object shape => exact (ObjectShape.sound le sound maps).1.faults proper failed
  | array shape => exact (ArrayShape.sound le sound).1.faults proper failed
  | primitive shape => exact (PrimitiveShape.sound le sound).1.faults proper.1 failed

theorem Schema.present_of_written {schema : Schema} {tree : Json}
    (written : schema.writtenAs room inner = .ok tree) : tree ≠ .null := by
  cases schema with
  | ref target => exact refCodec_sound.present written
  | object shape =>
    obtain ⟨members, -, rfl⟩ := Codec.record_encode.mp written
    exact nofun
  | array shape =>
    obtain ⟨members, -, rfl⟩ := Codec.record_encode.mp written
    exact nofun
  | primitive shape =>
    obtain ⟨members, -, rfl⟩ := Codec.record_encode.mp written
    exact nofun

/-- What is read of a clean value as a schema of its kind is proper. -/
theorem Schema.proper_of_read (le : room ≤ stepLimit) (sound : inner.Sound form)
    (maps : inner.ReadsMaps) {schema : Schema} {value : Value} (clean : value.clean)
    (kind : kindOf value = schema.kind) (read : schema.ReadFrom room inner value) :
    (Schema.layerForm form).proper schema := by
  cases schema with
  | ref target => exact trivial
  | object shape => exact (ObjectShape.sound le sound maps).1.reads clean read
  | array shape => exact (ArrayShape.sound le sound).1.reads clean read
  | primitive shape =>
    obtain ⟨entries, rfl⟩ := Codec.record_readsMaps _ _ _ read
    obtain ⟨noArray, noObject⟩ := declaresType_of_primitive kind
    exact ⟨(PrimitiveShape.sound le sound).1.reads clean read,
      PrimitiveShape.type_ne_of_decode clean read not_numeric_array noArray,
      PrimitiveShape.type_ne_of_decode clean read not_numeric_object noObject⟩

end

theorem Schema.layer_encode_eq_ok {below : SchemaKind → Option (Nat × Codec Schema)}
    {schema : Schema} {tree : Json} :
    (Schema.layer below).encode schema = .ok tree ↔ ∃ room inner,
      below schema.kind = some (room, inner) ∧ schema.writtenAs room inner = .ok tree := by
  rw [Schema.layer_encode]
  cases found : below schema.kind with
  | none => simp
  | some found => simp [Prod.ext_iff]

theorem Schema.layer_readsMaps (below : SchemaKind → Option (Nat × Codec Schema)) :
    (Schema.layer below).ReadsMaps := by
  intro value schema read
  obtain ⟨-, room, inner, -, readFrom⟩ := Schema.layer_decode.mp read
  cases schema with
  | ref target => exact Codec.record_readsMaps _ _ _ readFrom
  | object shape => exact Codec.record_readsMaps _ _ _ readFrom
  | array shape => exact Codec.record_readsMaps _ _ _ readFrom
  | primitive shape => exact Codec.record_readsMaps _ _ _ readFrom

/-- Schemas come back if the schemas below them do, whatever their kinds. -/
theorem Schema.sound_layer {below : SchemaKind → Option (Nat × Codec Schema)} {form : Form Schema}
    (each : ∀ kind room inner, below kind = some (room, inner) →
      room ≤ stepLimit ∧ inner.Sound form ∧ inner.ReadsMaps) :
    (Schema.layer below).Sound (Schema.layerForm form) where
  reads clean read := by
    obtain ⟨kind, room, inner, found, readFrom⟩ := Schema.layer_decode.mp read
    obtain ⟨le, sound, maps⟩ := each _ room inner found
    exact Schema.proper_of_read le sound maps clean kind readFrom
  back {schema tree} proper written := by
    obtain ⟨room, inner, found, writtenAs⟩ := Schema.layer_encode_eq_ok.mp written
    obtain ⟨le, sound, maps⟩ := each _ room inner found
    obtain ⟨kind, readFrom, -⟩ := Schema.return_of_written le sound maps proper writtenAs
    have same := Schema.kind_plain_layer form schema
    exact Schema.layer_decode.mpr ⟨kind.trans same.symm, room, inner, by rw [same, found], readFrom⟩
  again {schema tree} proper written := by
    obtain ⟨room, inner, found, writtenAs⟩ := Schema.layer_encode_eq_ok.mp written
    obtain ⟨le, sound, maps⟩ := each _ room inner found
    obtain ⟨-, -, again⟩ := Schema.return_of_written le sound maps proper writtenAs
    have same := Schema.kind_plain_layer form schema
    exact Schema.layer_encode_eq_ok.mpr ⟨room, inner, by rw [same, found], again⟩
  faults {schema fault} proper failed := by
    rw [Schema.layer_encode] at failed
    split at failed
    · rw [← Except.error.inj failed]
      exact nofun
    · next room inner found =>
      obtain ⟨le, sound, maps⟩ := each _ room inner found
      exact Schema.fault_of_written le sound maps proper failed
  present {schema tree} written := by
    obtain ⟨room, inner, -, writtenAs⟩ := Schema.layer_encode_eq_ok.mp written
    exact Schema.present_of_written writtenAs

theorem Schema.codec_readsMaps (room : Nat) (standing : Standing) :
    (Schema.codec room standing).ReadsMaps := by
  cases room with
  | zero => exact Schema.layer_readsMaps _
  | succ room =>
    rw [Schema.codec]
    exact Schema.layer_readsMaps _

/-- Schemas come back wherever they stand, if there is no more room than the depth to which they
are followed. -/
theorem Schema.sound {depth room : Nat} (le : room ≤ depth) (within : depth ≤ stepLimit)
    (standing : Standing) : (Schema.codec room standing).Sound (Schema.form depth) := by
  induction depth generalizing room standing with
  | zero =>
    obtain rfl := Nat.le_zero.mp le
    exact Schema.sound_layer nofun
  | succ depth inductionHypothesis =>
    have inside : ∀ room standing, room ≤ depth → room ≤ stepLimit ∧
        (Schema.codec room standing).Sound (Schema.form depth) ∧
          (Schema.codec room standing).ReadsMaps := fun room standing le =>
      ⟨by omega, inductionHypothesis le (by omega) standing, Schema.codec_readsMaps room standing⟩
    cases room with
    | zero => exact Schema.sound_layer nofun
    | succ room =>
      rw [Schema.codec]
      refine Schema.sound_layer fun kind left inner found => ?_
      -- A covered kind leaves the room of one step, any other that of two.
      split at found
      · obtain ⟨rfl, rfl⟩ := Prod.mk.inj (Option.some.inj found)
        exact inside _ _ (by omega)
      · cases room with
        | zero => nomatch found
        | succ room =>
          obtain ⟨rfl, rfl⟩ := Prod.mk.inj (Option.some.inj found)
          exact inside _ _ (by omega)

end GoApiDoc.Document
