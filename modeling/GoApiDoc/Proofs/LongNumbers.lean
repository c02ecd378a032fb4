/-
This file says when reading a part of a document ends because of a number that has no decimal text.
Such a number ends the reading wherever text is wanted, whatever else does not fit. If every whole
number of a value has a text, keys included, no part of a document ends that way: what does not fit
is reported as misfits.

The statement is built up as the codecs are. The ways of building codecs from others and of building
records from fields are tagged for the simplifier, so each record follows from its description.
-/

import GoApiDoc.Document.Basic
import GoApiDoc.Proofs.PlainData

namespace GoApiDoc.Document

open Yaml Decimal

/-! ### Results -/

/-- The result is a part or a list of misfits. -/
def Decoded.Worded {Part : Type} (read : Decoded Part) : Prop :=
  read ≠ .error .numberTooLong

section

variable {Part Item : Type}

@[simp] theorem Decoded.worded_ok (part : Part) : Decoded.Worded (.ok part) := by
  simp [Decoded.Worded]

/-- What does not fit is a list of misfits, whatever its reason. -/
@[simp] theorem Decoded.worded_misfit (reason : Reason) :
    Decoded.Worded (misfit reason : Decoded Part) := by
  simp [Decoded.Worded, misfit]

/-- The way to a part is only written into its misfits. -/
@[simp] theorem Decoded.worded_under {read : Decoded Part} {step : Step} :
    (read.under step).Worded ↔ read.Worded := by
  rcases read with (_ | _) | _ <;> simp [Decoded.Worded, Decoded.under, Refusal.under]

@[simp] theorem Decoded.worded_map {read : Decoded Part} {use : Part → Item} :
    Decoded.Worded (read.map use) ↔ read.Worded := by
  cases read <;> simp [Decoded.Worded, Except.map]

/-- A number without a text ends the reading of both, also where the other has misfits. -/
@[simp] theorem Decoded.worded_both {first : Decoded Part} {second : Decoded Item} :
    (first.both second).Worded ↔ first.Worded ∧ second.Worded := by
  rcases first with (_ | _) | _ <;> rcases second with (_ | _) | _ <;>
    simp [Decoded.Worded, Decoded.both, Refusal.and]

/-- Of many readings, one without a text ends them all. -/
@[simp] theorem Decoded.worded_all {reads : List (Decoded Part)} :
    (Decoded.all reads).Worded ↔ ∀ read ∈ reads, read.Worded := by
  induction reads with
  | nil => simp [Decoded.all]
  | cons read rest inductionHypothesis => simp [Decoded.all, inductionHypothesis]

end

/-! ### Codecs -/

/-- The codec reads values whose whole numbers have texts without coming to a number that has
none. -/
def Codec.Worded {Part : Type} (codec : Codec Part) : Prop :=
  ∀ value : Value, value.allText → (codec.decode value).Worded

/-- The fields of a mapping whose whole numbers have texts are read likewise. -/
def Fields.Worded {Record Part : Type} (fields : Fields Record Part) : Prop :=
  ∀ (value : Value) (entries : List (Value × Value)), value.allText →
    value.entries? = some entries → (fields.decode entries).Worded

/-- The numbers of items have texts if those of each item have. -/
theorem allTextItems_iff (items : List Value) :
    Value.allTextItems items ↔ ∀ item ∈ items, item.allText := by
  induction items with
  | nil => simp [Value.allTextItems]
  | cons item rest inductionHypothesis =>
    simp [Value.allTextItems, Bool.and_eq_true, inductionHypothesis]

/-- Keys count as well: they are read as the names of a table. -/
theorem allTextEntries_iff (entries : List (Value × Value)) :
    Value.allTextEntries entries ↔ ∀ entry ∈ entries, entry.1.allText ∧ entry.2.allText := by
  induction entries with
  | nil => simp [Value.allTextEntries]
  | cons entry rest inductionHypothesis =>
    simp [Value.allTextEntries, Bool.and_eq_true, inductionHypothesis]

/-- Whatever is found in a value whose numbers have texts has texts for its own. -/
theorem allText_hereditary : Value.Hereditary fun value => value.allText where
  seq := allTextItems_iff
  set := allTextItems_iff
  map := allTextEntries_iff

section

variable {Part Item Record : Type}

@[simp] theorem Codec.worded_plainText : Codec.plainText.Worded := by
  intro value texts
  unfold Codec.plainText
  dsimp only
  split
  · simp
  · split <;> simp
  · simp

/-- Numbers are the only values that are read as a text they have to be given first. -/
@[simp] theorem Codec.worded_text : Codec.text.Worded := by
  intro value texts
  have plain := Codec.worded_plainText value texts
  cases value with
  | int number =>
    have written : hasText number := texts
    simp [Codec.text, numberText, written]
  | float number => simp [Codec.text, numberText]
  | nan node => simp [Codec.text, numberText]
  | _ => exact plain

/-- A number is compared as it is where a truth value is wanted, so its text is not needed. -/
@[simp] theorem worded_boolOfNumber (number : Int) : (boolOfNumber number).Worded := by
  unfold boolOfNumber
  split
  · simp
  · split <;> simp

/-- Texts and numbers stand for truth values, and no text is made of a number. -/
@[simp] theorem Codec.worded_bool : Codec.bool.Worded := by
  intro value texts
  unfold Codec.bool
  dsimp only
  -- whatever form the value has, it is a truth value or one misfit
  repeat' split
  all_goals simp

@[simp] theorem Codec.worded_literal (word : String) : (Codec.literal word).Worded := by
  intro value texts
  unfold Codec.literal
  dsimp only
  split
  · split <;> simp
  · simp
  · simp

/-- Free data are taken as they are, long numbers included. -/
@[simp] theorem Codec.worded_anything (room : Nat) : (Codec.anything room).Worded :=
  fun value _ => Decoded.worded_ok value

/-- Too deep is a misfit. -/
@[simp] theorem Codec.worded_full : (Codec.full : Codec Part).Worded :=
  fun _ _ => Decoded.worded_misfit .tooDeep

@[simp] theorem Codec.worded_after {steps room : Nat} {codec : Nat → Codec Part}
    (worded : ∀ room, (codec room).Worded) : (Codec.after steps room codec).Worded := by
  intro value texts
  unfold Codec.after
  dsimp only
  split
  · exact worded _ value texts
  · simp

@[simp] theorem Codec.worded_inner {room : Nat} {codec : Codec Part} (worded : codec.Worded) :
    (Codec.inner room codec).Worded :=
  Codec.worded_after fun _ => worded

@[simp] theorem Codec.worded_later {codec : Unit → Codec Part} (worded : (codec ()).Worded) :
    (Codec.later codec).Worded :=
  worded

/-- The items of a value are found in it, so their numbers have texts. -/
@[simp] theorem Codec.worded_list {item : Codec Item} (worded : item.Worded) :
    (Codec.list item).Worded := by
  intro value texts
  unfold Codec.list
  dsimp only
  split
  · next values opened =>
    rw [Decoded.worded_all]
    intro read member
    obtain ⟨index, inside, rfl⟩ := List.mem_mapIdx.mp member
    rw [Decoded.worded_under]
    exact worded _ (allText_hereditary.of_mem_items? texts opened (List.getElem_mem inside))
  · simp

/-- Names and parts of a table are found in its value. -/
@[simp] theorem Codec.worded_tableBy {key : Codec Text} {item : Codec Item}
    (names : key.Worded) (worded : item.Worded) : (Codec.tableBy key item).Worded := by
  intro value texts
  unfold Codec.tableBy
  dsimp only
  split
  · next entries opened =>
    rw [Decoded.worded_map, Decoded.worded_all]
    intro read member
    obtain ⟨entry, inside, rfl⟩ := List.mem_map.mp member
    obtain ⟨keyTexts, itemTexts⟩ := allText_hereditary.of_mem_entries? texts opened inside
    simp only [decodeEntry, Decoded.worded_both, Decoded.worded_under]
    exact ⟨names _ keyTexts, worded _ itemTexts⟩
  · simp

@[simp] theorem Codec.worded_table {item : Codec Item} (worded : item.Worded) :
    (Codec.table item).Worded :=
  Codec.worded_tableBy Codec.worded_text worded

/-! ### Fields -/

/-- Building a record of its fields looks at no value. -/
@[simp] theorem Fields.worded_map {build : Part → Item} {fields : Fields Record Part} :
    (build <$> fields).Worded ↔ fields.Worded :=
  forall₄_congr fun _ _ _ _ => Decoded.worded_map

/-- Fields are read side by side: each has to come to its end. -/
@[simp] theorem Fields.worded_seq {first : Fields Record (Part → Item)}
    {second : Fields Record Part} : (first <*> second).Worded ↔ first.Worded ∧ second.Worded := by
  have both : ∀ entries, ((first <*> second).decode entries).Worded ↔
      (first.decode entries).Worded ∧ (second.decode entries).Worded := fun entries =>
    Decoded.worded_map.trans Decoded.worded_both
  simp only [Fields.Worded, both, imp_and, forall_and]

/-- What stands under a key is found in the mapping. -/
theorem allText_of_find? {key : Key} {whole value : Value} {entries : List (Value × Value)}
    {name : String} (texts : whole.allText) (opened : whole.entries? = some entries)
    (found : key.find? entries = some (name, value)) : value.allText := by
  obtain ⟨other, member⟩ := Key.mem_of_find? found
  exact (allText_hereditary.of_mem_entries? texts opened member).2

section

variable {key : Key} {codec : Codec Part} (worded : codec.Worded)

include worded

/-- A field that may be absent is read if its value is. -/
@[simp] theorem Fields.worded_optional {get : Record → Option Part} :
    (Fields.optional key codec get).Worded := by
  intro value entries texts opened
  unfold Fields.optional
  dsimp only
  split
  · simp
  · simp
  · next found =>
    rw [Decoded.worded_map, Decoded.worded_under]
    exact worded _ (allText_of_find? texts opened found)

/-- A field with a default is read if its value is. -/
@[simp] theorem Fields.worded_defaulted {absent : Part} {get : Record → Part} :
    (Fields.defaulted key codec absent get).Worded := by
  intro value entries texts opened
  unfold Fields.defaulted
  dsimp only
  split
  · simp
  · next found =>
    rw [Decoded.worded_under]
    exact worded _ (allText_of_find? texts opened found)

/-- A field that has to be there is read if its value is; a missing one is a misfit. -/
@[simp] theorem Fields.worded_required {get : Record → Part} :
    (Fields.required key codec get).Worded := by
  intro value entries texts opened
  unfold Fields.required
  dsimp only
  split
  · simp
  · next found =>
    rw [Decoded.worded_under]
    exact worded _ (allText_of_find? texts opened found)

end

@[simp] theorem Fields.worded_part {fields : Fields Item Part} {get : Record → Item} :
    (fields.part get).Worded ↔ fields.Worded :=
  Iff.rfl

/-- A record is read as its fields are, and what is no mapping is a misfit. -/
@[simp] theorem Codec.worded_record {fields : Fields Record Record} :
    (Codec.record fields).Worded ↔ fields.Worded := by
  constructor
  · intro worded value entries texts opened
    have read := worded value texts
    simp only [Codec.record, opened] at read
    exact read
  · intro worded value texts
    unfold Codec.record
    dsimp only
    split
    · next entries opened => exact worded value entries texts opened
    · simp

end

/-! ### Schemas -/

@[simp] theorem ExternalDocs.worded : ExternalDocs.codec.Worded := by
  simp [ExternalDocs.codec]

@[simp] theorem Xml.worded : Xml.codec.Worded := by
  simp [Xml.codec]

@[simp] theorem Discriminator.worded : Discriminator.codec.Worded := by
  simp [Discriminator.codec]

section

variable {Inner : Type} {room : Nat} {inner : Codec Inner} (within : inner.Worded)

include within

@[simp] theorem Annotations.worded : (Annotations.fields room inner).Worded := by
  simp [Annotations.fields, within]

theorem PrimitiveShape.worded : (PrimitiveShape.codec room inner).Worded := by
  simp [PrimitiveShape.codec, within]

/-- A schema or a truth value: the misfits of both are reported together. -/
@[simp] theorem Additional.worded : (Additional.codec inner).Worded := by
  intro value texts
  have schema := within value texts
  have bool := Codec.worded_bool value texts
  unfold Additional.codec
  dsimp only
  split
  · simp
  · next noSchema failed =>
    rw [failed] at schema
    split
    · simp
    · next noBool failed =>
      rw [failed] at bool
      cases noSchema with
      | numberTooLong => exact absurd rfl schema
      | misfits noSchema =>
        cases noBool with
        | numberTooLong => exact absurd rfl bool
        | misfits noBool => simp [Decoded.Worded, Refusal.under, Refusal.and]

theorem ObjectShape.worded : (ObjectShape.codec room inner).Worded := by
  simp [ObjectShape.codec, within]

theorem ArrayShape.worded : (ArrayShape.codec room inner).Worded := by
  simp [ArrayShape.codec, within]

end

theorem refCodec_worded : refCodec.Worded := by
  simp [refCodec]

/-- A schema is read as one of the four kinds, each over the schemas below it. -/
theorem Schema.worded_layer {below : SchemaKind → Option (Nat × Codec Schema)}
    (worded : ∀ kind, ∀ inside ∈ below kind, inside.2.Worded) : (Schema.layer below).Worded := by
  intro value texts
  unfold Schema.layer
  dsimp only
  rw [Decoded.worded_under]
  split
  · simp
  · rw [Decoded.worded_map]
    exact refCodec_worded value texts
  · next inside =>
    rw [Decoded.worded_map]
    exact ObjectShape.worded (worded _ _ inside) value texts
  · next inside =>
    rw [Decoded.worded_map]
    exact ArrayShape.worded (worded _ _ inside) value texts
  · next inside =>
    rw [Decoded.worded_map]
    exact PrimitiveShape.worded (worded _ _ inside) value texts

/-- Schemas of every depth, alone or inside one another. -/
@[simp] theorem Schema.worded (room : Nat) (standing : Standing) :
    (Schema.codec room standing).Worded := by
  fun_induction Schema.codec room standing with
  | case1 standing => exact Schema.worded_layer nofun
  | case2 room standing covered other =>
    -- one step leads on in the same surroundings, two into those of the kind
    refine Schema.worded_layer fun kind inside found => ?_
    split at found
    · obtain rfl := Option.some.inj found
      exact covered
    · cases room with
      | zero => nomatch found
      | succ room =>
        obtain rfl := Option.some.inj found
        exact other kind

/-! ### What requests and responses carry -/

@[simp] theorem ServerVariable.worded : ServerVariable.codec.Worded := by
  simp [ServerVariable.codec]

@[simp] theorem Server.worded : Server.codec.Worded := by
  simp [Server.codec]

theorem Server.worded_inner (room : Nat) : (Codec.inner room Server.codec).Worded :=
  Codec.worded_inner Server.worded

@[simp] theorem Example.worded (room : Nat) : (Example.codec room).Worded := by
  simp [Example.codec]

@[simp] theorem examples_worded (room : Nat) : (examplesCodec room).Worded := by
  simp [examplesCodec]

theorem Header.worded_layer {room : Nat} {inner : Codec MediaType} (worded : inner.Worded) :
    (Header.layer room inner).Worded := by
  simp [Header.layer, worded]

theorem Encoding.worded_layer {inner : Codec Header} (worded : inner.Worded) :
    (Encoding.layer inner).Worded := by
  simp [Encoding.layer, worded]

theorem MediaType.worded_layer {room : Nat} {inner : Codec Encoding} (worded : inner.Worded) :
    (MediaType.layer room inner).Worded := by
  simp [MediaType.layer, worded]

/-- Bodies hold encodings, these hold headers, and headers hold bodies again. -/
@[simp] theorem MediaType.worded (room : Nat) : (MediaType.codec room).Worded := by
  have layers : ∀ {room inner}, Codec.Worded inner →
      (MediaType.layer room (Encoding.layer (Header.layer room inner))).Worded := fun worded =>
    MediaType.worded_layer (Encoding.worded_layer (Header.worded_layer worded))
  induction room with
  | zero => exact layers Codec.worded_full
  | succ room inductionHypothesis => exact layers (Codec.worded_later inductionHypothesis)

@[simp] theorem content_worded (room : Nat) : (contentCodec room).Worded := by
  simp [contentCodec]

@[simp] theorem Header.worded (room : Nat) : (Header.codec room).Worded :=
  Header.worded_layer (Codec.worded_after MediaType.worded)

@[simp] theorem Parameter.worded (room : Nat) : (Parameter.codec room).Worded := by
  simp [Parameter.codec]

theorem Parameter.worded_inner (room : Nat) : (Codec.after 1 room Parameter.codec).Worded :=
  Codec.worded_after Parameter.worded

@[simp] theorem RequestBody.worded (room : Nat) : (RequestBody.codec room).Worded := by
  simp [RequestBody.codec]

@[simp] theorem Link.worded (room : Nat) : (Link.codec room).Worded := by
  simp [Link.codec]

@[simp] theorem Response.worded (room : Nat) : (Response.codec room).Worded := by
  simp [Response.codec]

/-! ### Paths -/

@[simp] theorem SecurityRequirement.worded : SecurityRequirement.codec.Worded := by
  simp [SecurityRequirement.codec]

theorem Operation.worded_layer {room : Nat} {inner : Codec PathItem} (worded : inner.Worded) :
    (Operation.layer room inner).Worded := by
  simp [Operation.layer, Parameter.worded_inner, Server.worded_inner,
    Codec.worded_table (Codec.worded_table worded)]

theorem PathItem.worded_layer {room : Nat} {inner : Codec Operation} (worded : inner.Worded) :
    (PathItem.layer room inner).Worded := by
  simp [PathItem.layer, Parameter.worded_inner, Server.worded_inner, worded]

/-- Operations hold callbacks, which are paths again. -/
theorem PathItem.worded (room : Nat) : (PathItem.codec room).Worded := by
  fun_induction PathItem.codec room with
  | case1 => exact PathItem.worded_layer Codec.worded_full
  | case2 => exact PathItem.worded_layer (Operation.worded_layer Codec.worded_full)
  | case3 room inductionHypothesis =>
    refine PathItem.worded_layer (Codec.worded_later ?_)
    exact Operation.worded_layer (Codec.worded_later inductionHypothesis)

@[simp] theorem Contact.worded : Contact.codec.Worded := by
  simp [Contact.codec]

@[simp] theorem License.worded : License.codec.Worded := by
  simp [License.codec]

theorem Info.worded : Info.codec.Worded := by
  simp [Info.codec]

end GoApiDoc.Document
