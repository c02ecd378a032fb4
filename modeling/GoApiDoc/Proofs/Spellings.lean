/-
This file says when it makes no difference under which of its names a field of a schema stands. Some
fields have two spellings. Put under the other one wherever there are two, the entries of a mapping
are found as before, so every field reads the same, and what does not fit is located under the
spelling that is there.

The variant is told from the keys before any field is looked up, and that knows only one spelling of
further properties. Where nothing else says that an object is described, the other spelling makes a
primitive value of it. That is the one case in which spelling makes a difference.
-/

import GoApiDoc.Proofs.SchemaReturn

namespace GoApiDoc.Document

open Yaml
open Go (map_eq_ok)

/-! ### Spellings -/

/-- The names of fields that have another spelling, each with the other spelling. -/
def doubleNames : List (String × String) :=
  [("$ref", "ref"), ("readOnly", "read_only"), ("writeOnly", "write_only"),
    ("externalDocs", "external_docs"), ("allOf", "all_of"), ("oneOf", "one_of"),
    ("anyOf", "any_of"), ("not", "not_"), ("additionalProperties", "additional_properties")]

/-- The other spelling of a name, if it has one. -/
def otherSpelling (name : String) : String :=
  (doubleNames.lookup name).getD name

/-- Nothing stands under the other spelling of a name. -/
def PlainlySpelled (entries : List (Value × Value)) : Prop :=
  ∀ names ∈ doubleNames, Value.get? names.2 entries = none

/-- A key in its other spelling. -/
def respelledKey : Value → Value
  | .str (.plain name) => .str (.plain (otherSpelling name))
  | key => key

/-- The entries with every key in its other spelling. -/
def respelled (entries : List (Value × Value)) : List (Value × Value) :=
  entries.map fun entry => (respelledKey entry.1, entry.2)

/-- The field has both spellings that some name has, or its name is no spelling of anything else. -/
def Key.Known (key : Key) : Prop :=
  (key.name, key.alternative) ∈ doubleNames ∨
    (key.alternative = key.name ∧ ∀ names ∈ doubleNames, names.1 ≠ key.name ∧ names.2 ≠ key.name)

instance (key : Key) : Decidable key.Known :=
  inferInstanceAs (Decidable (_ ∨ _))

instance (entries : List (Value × Value)) : Decidable (PlainlySpelled entries) :=
  inferInstanceAs (Decidable (∀ names ∈ doubleNames, Value.get? names.2 entries = none))

theorem otherSpelling_of_mem {name other : String} (double : (name, other) ∈ doubleNames) :
    otherSpelling name = other := by
  have each : ∀ names ∈ doubleNames, otherSpelling names.1 = names.2 := by decide
  exact each _ double

/-- A name has another spelling, or it stays as it is. -/
theorem otherSpelling_cases (name : String) :
    (name, otherSpelling name) ∈ doubleNames ∨
      (otherSpelling name = name ∧ ∀ names ∈ doubleNames, names.1 ≠ name) := by
  cases found : doubleNames.lookup name with
  | none =>
    refine Or.inr ⟨by rw [otherSpelling, found, Option.getD_none], fun names member same => ?_⟩
    have apart := List.lookup_eq_none_iff.mp found names member
    simp [same] at apart
  | some other =>
    obtain ⟨front, back, split, -⟩ := List.lookup_eq_some_iff.mp found
    have double : (name, other) ∈ doubleNames := by
      rw [split]
      exact List.mem_append_right front List.mem_cons_self
    rw [otherSpelling_of_mem double]
    exact Or.inl double

/-- Only a name itself is respelled as its other spelling, but for the other spelling. -/
theorem otherSpelling_eq_iff {name other spelled : String} (double : (name, other) ∈ doubleNames)
    (plain : spelled ≠ other) : otherSpelling spelled = other ↔ spelled = name := by
  have apart : ∀ first ∈ doubleNames, ∀ second ∈ doubleNames, first.2 = second.2 →
      first.1 = second.1 := by decide
  constructor
  · intro same
    obtain doubleSpelled | ⟨kept, -⟩ := otherSpelling_cases spelled
    · exact apart _ doubleSpelled _ double same
    · exact absurd (kept.symm.trans same) plain
  · rintro rfl
    exact otherSpelling_of_mem double

/-- Nothing is respelled as a name that has another spelling. -/
theorem otherSpelling_ne {name other : String} (double : (name, other) ∈ doubleNames)
    (spelled : String) : otherSpelling spelled ≠ name := by
  have apart : ∀ first ∈ doubleNames, ∀ second ∈ doubleNames, first.2 ≠ second.1 := by decide
  intro same
  obtain doubleSpelled | ⟨kept, single⟩ := otherSpelling_cases spelled
  · exact apart _ doubleSpelled _ double same
  · exact single _ double (same.symm.trans kept)

theorem otherSpelling_eq_self {name : String}
    (single : ∀ names ∈ doubleNames, names.1 ≠ name ∧ names.2 ≠ name) (spelled : String) :
    otherSpelling spelled = name ↔ spelled = name := by
  constructor
  · intro same
    obtain double | ⟨kept, -⟩ := otherSpelling_cases spelled
    · exact absurd same (single _ double).2
    · exact kept.symm.trans same
  · rintro rfl
    obtain double | ⟨kept, -⟩ := otherSpelling_cases spelled
    · exact absurd rfl (single _ double).1
    · exact kept

/-! ### Looking up -/

theorem ne_of_get?_eq_none {name spelled : String} {entries : List (Value × Value)} {value : Value}
    (absent : Value.get? name entries = none) (member : (.str (.plain spelled), value) ∈ entries) :
    spelled ≠ name := by
  fun_induction Value.get? name entries with
  | case1 => cases member
  | case2 => cases absent
  | case3 key other rest different inductionHypothesis =>
    obtain same | member := List.mem_cons.mp member
    · obtain ⟨same, -⟩ := Prod.mk.inj same
      rintro rfl
      exact different (Value.str.inj same).symm
    · exact inductionHypothesis absent member
  | case4 entry rest noText inductionHypothesis =>
    obtain rfl | member := List.mem_cons.mp member
    · exact absurd rfl (noText (.plain spelled) value)
    · exact inductionHypothesis absent member

/-- What is found under a name among the respelled entries is what stood under the name that is
respelled so. -/
theorem get?_respelled {name other : String} {entries : List (Value × Value)}
    (same : ∀ spelled value, (.str (.plain spelled), value) ∈ entries →
      (otherSpelling spelled = other ↔ spelled = name)) :
    Value.get? other (respelled entries) = Value.get? name entries := by
  fun_induction Value.get? name entries with
  | case1 => rfl
  | case2 value rest =>
    exact if_pos (congrArg Text.plain ((same _ _ List.mem_cons_self).mpr rfl))
  | case3 key value rest different inductionHypothesis =>
    have behind := inductionHypothesis fun spelled value member =>
      same spelled value (List.mem_cons_of_mem _ member)
    rw [← behind]
    cases key with
    | plain spelled =>
      refine if_neg fun found => different (congrArg Text.plain ?_)
      exact (same _ _ List.mem_cons_self).mp (Text.plain.inj found)
    | broken points half => exact if_neg (by rintro ⟨⟩)
  | case4 entry rest noText inductionHypothesis =>
    have behind := inductionHypothesis fun spelled value member =>
      same spelled value (List.mem_cons_of_mem _ member)
    rw [← behind]
    obtain ⟨key, value⟩ := entry
    cases key with
    | str key => exact absurd rfl (noText key value)
    | _ => rfl

section

variable {entries : List (Value × Value)} (plain : PlainlySpelled entries)

include plain

theorem get?_respelled_other {name other : String} (double : (name, other) ∈ doubleNames) :
    Value.get? other (respelled entries) = Value.get? name entries :=
  get?_respelled fun _ _ member =>
    otherSpelling_eq_iff double (ne_of_get?_eq_none (plain _ double) member)

theorem get?_respelled_name {name other : String} (double : (name, other) ∈ doubleNames) :
    Value.get? name (respelled entries) = none := by
  have absent : Value.get? other entries = none := plain _ double
  rw [← absent]
  exact get?_respelled fun spelled _ member => iff_of_false (otherSpelling_ne double spelled)
    (ne_of_get?_eq_none absent member)

omit plain in
theorem get?_respelled_single {name : String}
    (single : ∀ names ∈ doubleNames, names.1 ≠ name ∧ names.2 ≠ name) :
    Value.get? name (respelled entries) = Value.get? name entries :=
  get?_respelled fun spelled _ _ => otherSpelling_eq_self single spelled

/-- A field is found where it was, under its other spelling. -/
theorem Key.Known.find?_respelled {key : Key} (known : key.Known) :
    key.find? (respelled entries) =
      (key.find? entries).map fun found => (otherSpelling found.1, found.2) := by
  obtain double | ⟨single, names⟩ := known
  · rw [Key.find?, Key.find?, get?_respelled_name plain double, get?_respelled_other plain double,
      show Value.get? key.alternative entries = none from plain _ double]
    cases Value.get? key.name entries with
    | none => rfl
    | some value => simp [otherSpelling_of_mem double]
  · rw [Key.find?, Key.find?, single, get?_respelled_single names]
    cases Value.get? key.name entries with
    | none => rfl
    | some value => simp [(otherSpelling_eq_self names key.name).mpr rfl]

end

/-! ### Misfits -/

/-- The step under the other spelling of its name. -/
def Step.respelled : Step → Step
  | .name text => .name (otherSpelling text)
  | .index number => .index number

/-- The misfit with one step on the way to it under its other spelling. -/
def Misfit.respelled (place : Nat) (misfit : Misfit) : Misfit :=
  { misfit with path := misfit.path.modify place Step.respelled }

/-- The refusal with one step on the way to each misfit under its other spelling. -/
def Refusal.respelled (place : Nat) : Refusal → Refusal
  | .misfits found => .misfits (found.map (Misfit.respelled place))
  | .numberTooLong => .numberTooLong

/-- The result with one step on the way to each misfit under its other spelling. -/
def Decoded.respelled {Part : Type} (place : Nat) : Decoded Part → Decoded Part
  | .ok part => .ok part
  | .error refusal => .error (refusal.respelled place)

section

variable {Part Item Record : Type}

theorem Decoded.respelled_misfit (place : Nat) (reason : Reason) :
    (misfit reason : Decoded Part).respelled place = misfit reason := by
  cases place <;> rfl

theorem Decoded.respelled_under_zero (step : Step) (read : Decoded Part) :
    (read.under step).respelled 0 = read.under step.respelled := by
  cases read with
  | ok part => rfl
  | error refusal =>
    cases refusal with
    | numberTooLong => rfl
    | misfits found =>
      simp [Decoded.under, Decoded.respelled, Refusal.under, Refusal.respelled, Misfit.under,
        Misfit.respelled]

theorem Decoded.respelled_under_succ (place : Nat) (step : Step) (read : Decoded Part) :
    (read.under step).respelled (place + 1) = (read.respelled place).under step := by
  cases read with
  | ok part => rfl
  | error refusal =>
    cases refusal with
    | numberTooLong => rfl
    | misfits found =>
      simp [Decoded.under, Decoded.respelled, Refusal.under, Refusal.respelled, Misfit.under,
        Misfit.respelled]

theorem Decoded.respelled_map (place : Nat) (use : Part → Item) (read : Decoded Part) :
    Decoded.respelled place (read.map use) = (read.respelled place).map use := by
  cases read <;> rfl

theorem Decoded.respelled_both (place : Nat) (first : Decoded Part) (second : Decoded Item) :
    (first.both second).respelled place =
      (first.respelled place).both (second.respelled place) := by
  cases first with
  | ok part => cases second <;> rfl
  | error refusal =>
    cases second with
    | ok item => rfl
    | error other =>
      cases refusal with
      | numberTooLong => cases other <;> rfl
      | misfits found =>
        cases other with
        | numberTooLong => rfl
        | misfits more =>
          simp [Decoded.both, Decoded.respelled, Refusal.and, Refusal.respelled]

/-! ### Fields -/

/-- The fields read the same under the other spellings, and misfits lie under these. -/
def Fields.Respells (fields : Fields Record Part) : Prop :=
  ∀ entries, PlainlySpelled entries →
    fields.decode (respelled entries) = (fields.decode entries).respelled 0

theorem Fields.Respells.map {build : Part → Item} {fields : Fields Record Part}
    (respells : fields.Respells) : (build <$> fields).Respells := by
  intro entries plain
  have read : ∀ entries, (build <$> fields).decode entries = (fields.decode entries).map build :=
    fun _ => rfl
  rw [read, read, respells entries plain, Decoded.respelled_map]

theorem Fields.Respells.seq {first : Fields Record (Part → Item)} {second : Fields Record Part}
    (respellsFirst : first.Respells) (respellsSecond : second.Respells) :
    (first <*> second).Respells := by
  intro entries plain
  have read : ∀ entries, (first <*> second).decode entries =
      ((first.decode entries).both (second.decode entries)).map fun both => both.1 both.2 :=
    fun _ => rfl
  rw [read, read, respellsFirst entries plain, respellsSecond entries plain,
    Decoded.respelled_map, Decoded.respelled_both]

theorem Fields.Respells.part {fields : Fields Item Part} {get : Record → Item}
    (respells : fields.Respells) : (fields.part get).Respells :=
  respells

section

variable {key : Key} (known : key.Known) {codec : Codec Part}

include known

theorem Fields.Respells.optional {get : Record → Option Part} :
    (Fields.optional key codec get).Respells := by
  intro entries plain
  unfold Fields.optional
  dsimp only
  rw [known.find?_respelled plain]
  cases key.find? entries with
  | none => rfl
  | some found =>
    obtain ⟨name, value⟩ := found
    cases value with
    | null => rfl
    | _ =>
      simp only [Option.map_some]
      rw [Decoded.respelled_map, Decoded.respelled_under_zero]
      rfl

theorem Fields.Respells.defaulted {absent : Part} {get : Record → Part} :
    (Fields.defaulted key codec absent get).Respells := by
  intro entries plain
  unfold Fields.defaulted
  dsimp only
  rw [known.find?_respelled plain]
  cases key.find? entries with
  | none => rfl
  | some found =>
    simp only [Option.map_some]
    rw [Decoded.respelled_under_zero]
    rfl

/-- A field that has to be there, if it is or if it is missed under the one spelling it has. -/
theorem Fields.required_respelled (get : Record → Part) {entries : List (Value × Value)}
    (plain : PlainlySpelled entries)
    (named : (key.find? entries).isSome ∨ otherSpelling key.name = key.name) :
    (Fields.required key codec get).decode (respelled entries) =
      ((Fields.required key codec get).decode entries).respelled 0 := by
  unfold Fields.required
  dsimp only
  rw [known.find?_respelled plain]
  cases found : key.find? entries with
  | none =>
    have kept := named.resolve_left (by simp [found])
    simp only [Option.map_none]
    rw [Decoded.respelled_under_zero, Step.respelled, kept]
  | some found =>
    simp only [Option.map_some]
    rw [Decoded.respelled_under_zero]
    rfl

theorem Fields.Respells.required {get : Record → Part} (kept : otherSpelling key.name = key.name) :
    (Fields.required key codec get).Respells :=
  fun _ plain => Fields.required_respelled known get plain (Or.inr kept)

end

end

/-! ### The variants -/

section

variable {σ : Type} (room : Nat) (inner : Codec σ)

theorem Annotations.respells : (Annotations.fields room inner).Respells :=
  Fields.Respells.map (.optional (by decide))
    |>.seq (.optional (by decide))
    |>.seq (.optional (by decide))
    |>.seq (.optional (by decide))
    |>.seq (.optional (by decide))
    |>.seq (.optional (by decide))
    |>.seq (.optional (by decide))
    |>.seq (.optional (by decide))
    |>.seq (.optional (by decide))
    |>.seq (.optional (by decide))
    |>.seq (.optional (by decide))
    |>.seq (.optional (by decide))
    |>.seq (.optional (by decide))
    |>.seq (.optional (by decide))
    |>.seq (.optional (by decide))
    |>.seq (.optional (by decide))

variable {first second : Value} {entries : List (Value × Value)}
  (opened : first.entries? = some entries)
  (openedOther : second.entries? = some (respelled entries)) (plain : PlainlySpelled entries)

include opened openedOther plain

omit room inner in
/-- A record whose fields read the same reads the same. -/
theorem Codec.record_respelled {Part : Type} {fields : Fields Part Part}
    (respells : fields.Respells) :
    (Codec.record fields).decode second = ((Codec.record fields).decode first).respelled 0 := by
  rw [Codec.record_decode opened, Codec.record_decode openedOther]
  exact respells entries plain

theorem PrimitiveShape.decode_respelled :
    (PrimitiveShape.codec room inner).decode second =
      ((PrimitiveShape.codec room inner).decode first).respelled 0 :=
  Codec.record_respelled opened openedOther plain
    (Fields.Respells.map (.part (Annotations.respells room inner))
      |>.seq (.optional (by decide))
      |>.seq (.optional (by decide)))

theorem ObjectShape.decode_respelled :
    (ObjectShape.codec room inner).decode second =
      ((ObjectShape.codec room inner).decode first).respelled 0 :=
  Codec.record_respelled opened openedOther plain
    (Fields.Respells.map (.part (Annotations.respells room inner))
      |>.seq (.defaulted (by decide))
      |>.seq (.optional (by decide))
      |>.seq (.optional (by decide))
      |>.seq (.optional (by decide)))

theorem ArrayShape.decode_respelled :
    (ArrayShape.codec room inner).decode second =
      ((ArrayShape.codec room inner).decode first).respelled 0 :=
  Codec.record_respelled opened openedOther plain
    (Fields.Respells.map (.part (Annotations.respells room inner))
      |>.seq (.defaulted (by decide))
      |>.seq (.required (by decide) (by decide)))

omit room inner in
/-- A reference is told by its key, so the key is there. -/
theorem refCodec_respelled (there : (Value.get? "$ref" entries).isSome) :
    refCodec.decode second = (refCodec.decode first).respelled 0 := by
  obtain ⟨value, found⟩ := Option.isSome_iff_exists.mp there
  have named : (Key.find? ⟨"$ref", "ref"⟩ entries).isSome := by
    rw [Key.find?, found]
    rfl
  have known : Key.Known ⟨"$ref", "ref"⟩ := by decide
  rw [refCodec, Codec.record_decode opened, Codec.record_decode openedOther]
  exact Fields.required_respelled known id plain (Or.inl named)

end

/-! ### The variant -/

/-- That an object is described is told from its further properties alone. -/
def HangsOnAdditional (entries : List (Value × Value)) : Prop :=
  (Value.get? "$ref" entries).isNone ∧ declaresType "array" entries = false ∧
    declaresType "object" entries = false ∧ (Value.get? "properties" entries).isNone ∧
    (Value.get? "additionalProperties" entries).isSome

instance (entries : List (Value × Value)) : Decidable (HangsOnAdditional entries) :=
  inferInstanceAs (Decidable (_ ∧ _))

/-- The variant is told by what a mapping holds. -/
theorem kindOf_of_entries? {value : Value} {entries : List (Value × Value)}
    (opened : value.entries? = some entries) : kindOf value = kindOf (.map entries) := by
  cases value with
  | map mapping =>
    obtain rfl := Option.some.inj opened
    simp only [kindOf, declaresType_withOuterEntries, Value.get?_withOuterEntries,
      Option.isSome_map]
  | _ => cases opened

section

variable {entries : List (Value × Value)} (plain : PlainlySpelled entries)

include plain

/-- Further properties in their other spelling do not tell that an object is described. -/
theorem kindOf_respelled :
    kindOf (.map (respelled entries)) =
      if (Value.get? "$ref" entries).isSome then .ref
      else if declaresType "array" entries then .array
      else if declaresType "object" entries || (Value.get? "properties" entries).isSome then .object
      else .primitive := by
  have type : ∀ word, declaresType word (respelled entries) = declaresType word entries := by
    intro word
    rw [declaresType, get?_respelled_single (by decide)]
    rfl
  have reference : Value.get? "ref" (respelled entries) = Value.get? "$ref" entries :=
    get?_respelled_other plain (by decide)
  have noReference : Value.get? "$ref" (respelled entries) = none :=
    get?_respelled_name plain (by decide : ("$ref", "ref") ∈ doubleNames)
  have noAdditional : Value.get? "additionalProperties" (respelled entries) = none :=
    get?_respelled_name plain
      (by decide : ("additionalProperties", "additional_properties") ∈ doubleNames)
  have properties : Value.get? "properties" (respelled entries) = Value.get? "properties" entries :=
    get?_respelled_single (by decide)
  simp only [kindOf, reference, noReference, noAdditional, properties, type, Option.isSome_none,
    Bool.false_or, Bool.or_false]

theorem kindOf_respelled_of_hangs (hangs : HangsOnAdditional entries) :
    kindOf (.map entries) = .object ∧ kindOf (.map (respelled entries)) = .primitive := by
  have noOther : Value.get? "ref" entries = none := plain ("$ref", "ref") (by decide)
  obtain ⟨noReference, noArray, noObject, noProperties, additional⟩ := hangs
  rw [Option.isNone_iff_eq_none] at noReference noProperties
  rw [kindOf_respelled plain]
  simp [kindOf, noOther, noReference, noArray, noObject, noProperties, additional]

theorem kindOf_respelled_of_not_hangs (anchored : ¬ HangsOnAdditional entries) :
    kindOf (.map (respelled entries)) = kindOf (.map entries) := by
  have noOther : Value.get? "ref" entries = none := plain ("$ref", "ref") (by decide)
  rw [kindOf_respelled plain]
  simp only [kindOf, noOther, Option.isSome_none, Bool.or_false]
  by_cases reference : (Value.get? "$ref" entries).isSome
  · rw [if_pos reference, if_pos reference]
  by_cases array : declaresType "array" entries
  · simp only [array, if_true]
  by_cases object : declaresType "object" entries || (Value.get? "properties" entries).isSome
  · simp only [object, Bool.true_or]
  have noAdditional : (Value.get? "additionalProperties" entries).isSome = false := by
    obtain ⟨noObject, noProperties⟩ := not_or.mp (mt (Bool.or_eq_true _ _).mpr object)
    refine eq_false_of_ne_true fun additional => anchored ?_
    exact ⟨by simpa using reference, eq_false_of_ne_true array, eq_false_of_ne_true noObject,
      by simpa using noProperties, additional⟩
  simp only [noAdditional, Bool.or_false]

theorem isSome_of_kindOf_ref (kind : kindOf (.map entries) = .ref) :
    (Value.get? "$ref" entries).isSome := by
  have noOther : Value.get? "ref" entries = none := plain ("$ref", "ref") (by decide)
  refine Decidable.byContradiction fun absent => ?_
  simp only [kindOf, noOther, absent, Option.isSome_none, Bool.or_false] at kind
  split at kind
  · next impossible => cases impossible
  · split at kind
    · cases kind
    · split at kind <;> cases kind

end

/-! ### Schemas -/

section

variable {first second : Value} {entries : List (Value × Value)}
  (opened : first.entries? = some entries)
  (openedOther : second.entries? = some (respelled entries)) (plain : PlainlySpelled entries)

include opened openedOther plain

/-- Within the variant, everything reads the same under the other spellings. -/
theorem Schema.layer_respelled {below : SchemaKind → Option (Nat × Codec Schema)}
    (anchored : ¬ HangsOnAdditional entries) :
    (Schema.layer below).decode second = ((Schema.layer below).decode first).respelled 1 := by
  have same : kindOf second = kindOf first := by
    rw [kindOf_of_entries? openedOther, kindOf_respelled_of_not_hangs plain anchored,
      kindOf_of_entries? opened]
  simp only [Schema.layer, same, Decoded.respelled_under_succ]
  congr 1
  split
  · rw [Decoded.respelled_misfit]
  · next kind found =>
    rw [kindOf_of_entries? opened] at kind
    rw [refCodec_respelled opened openedOther plain (isSome_of_kindOf_ref plain kind),
      Decoded.respelled_map]
  · rw [ObjectShape.decode_respelled _ _ opened openedOther plain, Decoded.respelled_map]
  · rw [ArrayShape.decode_respelled _ _ opened openedOther plain, Decoded.respelled_map]
  · rw [PrimitiveShape.decode_respelled _ _ opened openedOther plain, Decoded.respelled_map]

theorem Schema.codec_respelled (room : Nat) (standing : Standing)
    (anchored : ¬ HangsOnAdditional entries) :
    (Schema.codec room standing).decode second =
      ((Schema.codec room standing).decode first).respelled 1 := by
  cases room with
  | zero => exact Schema.layer_respelled opened openedOther plain anchored
  | succ room =>
    rw [Schema.codec]
    exact Schema.layer_respelled opened openedOther plain anchored

end

theorem Schema.kind_of_codec (room : Nat) (standing : Standing) {value : Value} {schema : Schema}
    (read : (Schema.codec room standing).decode value = .ok schema) :
    kindOf value = schema.kind := by
  cases room with
  | zero => exact (Schema.layer_decode.mp read).1
  | succ room =>
    rw [Schema.codec] at read
    exact (Schema.layer_decode.mp read).1

/-- The spelling of keys makes no difference to what a schema is read as: the same schema, or the
same misfits in the same order, each under the spelling that is there. The one case in which it
makes a difference is that an object is told from its further properties alone: in their other
spelling a primitive value is described, and the two are never read as the same schema. The two
mappings hold the same values, also where these hold one of the mappings in turn. -/
theorem Schema.decode_either_spelling {first second : Value} {entries : List (Value × Value)}
    (opened : first.entries? = some entries)
    (openedOther : second.entries? = some (respelled entries)) (plain : PlainlySpelled entries) :
    (¬ HangsOnAdditional entries →
      Schema.aloneCodec.decode second = (Schema.aloneCodec.decode first).respelled 1) ∧
    (HangsOnAdditional entries →
      kindOf first = .object ∧ kindOf second = .primitive ∧
        ∀ schema, Schema.aloneCodec.decode first = .ok schema →
          Schema.aloneCodec.decode second ≠ .ok schema) := by
  refine ⟨Schema.codec_respelled opened openedOther plain stepLimit .alone, fun hangs => ?_⟩
  obtain ⟨object, primitive⟩ := kindOf_respelled_of_hangs plain hangs
  rw [← kindOf_of_entries? opened] at object
  rw [← kindOf_of_entries? openedOther] at primitive
  refine ⟨object, primitive, fun schema read readOther => ?_⟩
  have kind := Schema.kind_of_codec stepLimit .alone read
  have kindOther := Schema.kind_of_codec stepLimit .alone readOther
  rw [← kindOther, object, primitive] at kind
  nomatch kind

/-- Entries of which some do not fit, and one holds the whole mapping: every misfit lies under the
spelling that is there. -/
theorem Schema.decode_either_spelling_misfits :
    let first : Value := .map [(.str "readOnly", .str "perhaps"),
      (.str "allOf", .seq [.map [(.str "$ref", .str "#")]]), (.str "not", .map []),
      (.str "externalDocs", .outer 0), (.str "unknown", .null), (.str "items", .seq []),
      (.str "type", .str "array")]
    let entries : List (Value × Value) := [(.str "readOnly", .str "perhaps"),
      (.str "allOf", .seq [.map [(.str "$ref", .str "#")]]), (.str "not", .map []),
      (.str "externalDocs", first), (.str "unknown", .null), (.str "items", .seq []),
      (.str "type", .str "array")]
    let second : Value := .map (respelled entries)
    first.entries? = some entries ∧ second.entries? = some (respelled entries) ∧
      PlainlySpelled entries ∧ ¬ HangsOnAdditional entries ∧
      Schema.aloneCodec.decode second = (Schema.aloneCodec.decode first).respelled 1 := by
  intro first entries second
  have opened : first.entries? = some entries := rfl
  have openedOther : second.entries? = some (respelled entries) := rfl
  have plain : PlainlySpelled entries := by decide
  have anchored : ¬ HangsOnAdditional entries := by decide
  exact ⟨opened, openedOther, plain, anchored,
    (Schema.decode_either_spelling opened openedOther plain).1 anchored⟩

/-- Further properties tell that an object is described in one spelling and not in the other. -/
theorem Schema.additional_respelled :
    let entries : List (Value × Value) := [(.str "additionalProperties", .bool true)]
    PlainlySpelled entries ∧
      respelled entries = [(.str "additional_properties", .bool true)] ∧
      Schema.aloneCodec.decode (.map entries) =
        .ok (.object { additional := some (.allowed true) }) ∧
      Schema.aloneCodec.decode (.map (respelled entries)) = .ok (.primitive {}) := by
  intro entries
  refine ⟨by decide, rfl, rfl, rfl⟩

end GoApiDoc.Document
