/-
This file says what it takes for a part of a document to come back when it is written and read. A
form of a part says which parts are proper and as what a proper part comes back; a codec returns
the parts of a form if what it reads from clean data is proper, what it writes of a proper part is
read as the plain part, and the plain part is written as before.

The statements follow the construction of the codecs. For each way of building a codec from others
there is a statement that builds what is known of it from what is known of the others, and a record
is followed field by field. The fields of a record may not get in each other's way: the name of one
is neither the name of another nor the alternative under which another is looked up.
-/

import GoApiDoc.Proofs.PlainData
import GoApiDoc.Proofs.Texts

namespace GoApiDoc.Document

open Yaml
open Go (bind_eq_ok map_eq_ok pure_eq_ok bind_eq_error pure_ne_error)

variable {Part Item Record Rest : Type}

/-! ### Results of reading -/

theorem Decoded.under_eq_ok {step : Step} {read : Decoded Part} {part : Part} :
    read.under step = .ok part ↔ read = .ok part := by
  cases read with
  | error refusal => simp [Decoded.under]
  | ok found => rfl

theorem Decoded.both_eq_ok {first : Decoded Part} {second : Decoded Item} {both : Part × Item} :
    first.both second = .ok both ↔ first = .ok both.1 ∧ second = .ok both.2 := by
  cases first with
  | error refusal => cases second <;> simp [Decoded.both]
  | ok found =>
    cases second with
    | error refusal => simp [Decoded.both]
    | ok other => simp [Decoded.both, Prod.ext_iff]

theorem Decoded.all_eq_ok {reads : List (Decoded Part)} {parts : List Part} :
    Decoded.all reads = .ok parts ↔
      List.Forall₂ (fun read part => read = .ok part) reads parts := by
  induction reads generalizing parts with
  | nil => cases parts <;> simp [Decoded.all]
  | cons read rest inductionHypothesis =>
    simp only [Decoded.all, map_eq_ok, Decoded.both_eq_ok, inductionHypothesis, Prod.exists]
    constructor
    · rintro ⟨part, others, ⟨first, second⟩, rfl⟩
      exact .cons first second
    · rintro (_ | ⟨first, second⟩)
      exact ⟨_, _, ⟨first, second⟩, rfl⟩

/-- The steps that lead to the items have no part in what is read. -/
theorem Decoded.all_mapIdx_eq_ok {decode : Value → Decoded Part} {step : Nat → Step}
    {values : List Value} {parts : List Part} :
    Decoded.all (values.mapIdx fun index value => (decode value).under (step index)) = .ok parts ↔
      List.Forall₂ (fun value part => decode value = .ok part) values parts := by
  rw [Decoded.all_eq_ok]
  induction values generalizing parts step with
  | nil => cases parts <;> simp
  | cons value rest inductionHypothesis =>
    rw [List.mapIdx_cons, List.forall₂_cons_left_iff, List.forall₂_cons_left_iff]
    simp only [Decoded.under_eq_ok, inductionHypothesis]

theorem mapM_eq_ok {write : Part → Except EncodeFault Item} {parts : List Part}
    {items : List Item} :
    parts.mapM write = .ok items ↔
      List.Forall₂ (fun part item => write part = .ok item) parts items := by
  induction parts generalizing items with
  | nil => cases items <;> simp [pure_eq_ok]
  | cons part rest inductionHypothesis =>
    simp only [List.mapM_cons, bind_eq_ok, pure_eq_ok, inductionHypothesis]
    constructor
    · rintro ⟨item, first, others, second, rfl⟩
      exact .cons first second
    · rintro (_ | ⟨first, second⟩)
      exact ⟨_, first, _, second, rfl⟩

/-- Writing a list fails as writing one of its items does. -/
theorem fault_of_mapM {write : Part → Except EncodeFault Item} {parts : List Part}
    {fault : EncodeFault} (failed : parts.mapM write = .error fault) :
    ∃ part ∈ parts, write part = .error fault := by
  induction parts with
  | nil => nomatch failed
  | cons part rest inductionHypothesis =>
    rw [List.mapM_cons, bind_eq_error] at failed
    obtain failed | ⟨item, -, failed⟩ := failed
    · exact ⟨part, List.mem_cons_self, failed⟩
    · obtain failed | ⟨items, -, failed⟩ := bind_eq_error.mp failed
      · obtain ⟨other, member, failed⟩ := inductionHypothesis failed
        exact ⟨other, List.mem_cons_of_mem _ member, failed⟩
      · exact absurd failed pure_ne_error

/-! ### Forms -/

/-- Which parts come back when they are written and read, and as what. -/
structure Form (Part : Type) where
  proper : Part → Prop
  plain : Part → Part

namespace Form

/-- Every part comes back. -/
def total (plain : Part → Part) : Form Part :=
  ⟨fun _ => True, plain⟩

/-- Every part comes back, as it is. -/
def exact : Form Part :=
  total id

/-- Lists of parts of a form. -/
def list (item : Form Item) : Form (List Item) where
  proper items := ∀ each ∈ items, item.proper each
  plain := List.map item.plain

/-- Tables of parts of a form. The surrogates in their names are replaced. -/
def table (item : Form Item) : Form (Table Item) where
  proper entries := ∀ entry ∈ entries, item.proper entry.2
  plain entries := Table.ofList (entries.map fun entry => (↑entry.1.lossy, item.plain entry.2))

/-- Free data. -/
def free : Form Value :=
  ⟨fun value => value.clean, plainValue⟩

/-- Free data that stand in a field, where null counts as absent. -/
def freeField : Form Value :=
  ⟨fun value => value.clean ∧ value ≠ .null, plainValue⟩

end Form

/-- The codec returns the parts of a form. -/
structure Codec.Returns (codec : Codec Part) (form : Form Part) : Prop where
  reads : ∀ {value part}, value.clean → codec.decode value = .ok part → form.proper part
  back : ∀ {part tree}, form.proper part → codec.encode part = .ok tree →
    codec.decode tree.toValue = .ok (form.plain part)
  again : ∀ {part tree}, form.proper part → codec.encode part = .ok tree →
    codec.encode (form.plain part) = .ok tree
  faults : ∀ {part fault}, form.proper part → codec.encode part = .error fault →
    fault ≠ .notUnicode

/-- The codec returns the parts of a form, and it writes none of them as null. -/
structure Codec.Sound (codec : Codec Part) (form : Form Part) : Prop
    extends Codec.Returns codec form where
  present : ∀ {part tree}, codec.encode part = .ok tree → tree ≠ .null

/-! ### Plain parts -/

/-- A codec that writes every part, and not as null, and reads what it writes. -/
theorem Codec.sound_exact {codec : Codec Part} {write : Part → Json}
    (writes : ∀ part, codec.encode part = .ok (write part)) (present : ∀ part, write part ≠ .null)
    (reads : ∀ part, codec.decode (write part).toValue = .ok part) : codec.Sound .exact where
  reads _ _ := trivial
  back _ written := by
    rw [writes] at written
    rw [← Except.ok.inj written, reads]
    rfl
  again _ written := written
  faults _ failed := by
    rw [writes] at failed
    nomatch failed
  present written := by
    rw [writes] at written
    rw [← Except.ok.inj written]
    exact present _

theorem Codec.text_sound : Codec.text.Sound .exact :=
  Codec.sound_exact (fun _ => rfl) nofun fun _ => rfl

theorem Codec.bool_sound : Codec.bool.Sound .exact :=
  Codec.sound_exact (fun _ => rfl) nofun fun _ => rfl

theorem Codec.literal_sound (word : String) : (Codec.literal word).Sound .exact :=
  Codec.sound_exact (fun _ => rfl) nofun fun _ => if_pos rfl

/-- Free data are read as they are, so what is written of them is read as plain data. -/
theorem Codec.anything_returns {room : Nat} (le : room ≤ stepLimit) :
    (Codec.anything room).Returns .free where
  reads clean read := by
    rw [← Except.ok.inj read]
    exact clean
  back _ written := congrArg Except.ok (plainValue_eq le written).symm
  again {value tree} _ written := by
    have same : Form.free.plain value = tree.toValue := plainValue_eq le written
    rw [same]
    exact plainData_toValue written
  faults := fault_of_plainData

/-! ### Room -/

/-- Where there is no room left nothing is read or written. -/
theorem Codec.full_sound (form : Form Part) : Codec.full.Sound form where
  reads _ read := nomatch read
  back _ written := nomatch written
  again _ written := nomatch written
  faults _ failed := by
    rw [← Except.error.inj failed]
    exact nofun
  present written := nomatch written

theorem Codec.Sound.later {codec : Unit → Codec Part} {form : Form Part}
    (sound : (codec ()).Sound form) : (Codec.later codec).Sound form :=
  ⟨⟨sound.reads, sound.back, sound.again, sound.faults⟩, sound.present⟩

/-- A part behind some steps: what is known of its codec for the room that is left. -/
theorem Codec.Sound.after {steps room : Nat} {codec : Nat → Codec Part} {form : Form Part}
    (sound : steps ≤ room → (codec (room - steps)).Sound form) :
    (Codec.after steps room codec).Sound form := by
  by_cases fits : steps ≤ room
  · have same : Codec.after steps room codec = codec (room - steps) := by
      simp only [Codec.after, if_pos fits]
    rw [same]
    exact sound fits
  · have none : Codec.after steps room codec = Codec.full := by
      simp only [Codec.after, if_neg fits]
      rfl
    rw [none]
    exact Codec.full_sound form

theorem Codec.Sound.inner {room : Nat} {codec : Codec Part} {form : Form Part}
    (sound : codec.Sound form) : (Codec.inner room codec).Sound form :=
  Codec.Sound.after fun _ => sound

/-! ### Lists and tables -/

/-- What is known of the parts and of what is written of each is known of both together. -/
theorem forall₂_of_written {written : Part → Item → Prop} {proper : Part → Prop}
    {related : Part → Item → Prop} {parts : List Part} {items : List Item}
    (each : List.Forall₂ written parts items) (properEach : ∀ part ∈ parts, proper part)
    (step : ∀ part item, proper part → written part item → related part item) :
    List.Forall₂ related parts items :=
  ((List.forall₂_and_left _ _).mpr ⟨properEach, each⟩).imp fun part item both =>
    step part item both.1 both.2

/-- A list returns what its items return; a set comes back as a list. -/
theorem Codec.Returns.list {item : Codec Item} {form : Form Item} (returns : item.Returns form) :
    (Codec.list item).Sound form.list where
  reads {value parts} clean read := by
    simp only [Codec.list] at read
    split at read
    · next values opened =>
      refine forall_mem_of_forall₂ (Decoded.all_mapIdx_eq_ok.mp read) ?_
      exact fun value member part =>
        returns.reads (Value.clean_hereditary.of_mem_items? clean opened member)
    · nomatch read
  back {parts tree} proper written := by
    obtain ⟨trees, each, same⟩ := bind_eq_ok.mp written
    obtain rfl := pure_eq_ok.mp same
    simp only [Codec.list, Json.items?_toValue_array]
    refine Decoded.all_mapIdx_eq_ok.mpr ?_
    rw [Form.list, List.forall₂_map_left_iff, List.forall₂_map_right_iff]
    refine List.Forall₂.flip (forall₂_of_written (mapM_eq_ok.mp each) proper ?_)
    exact fun part tree => returns.back
  again {parts tree} proper written := by
    obtain ⟨trees, each, same⟩ := bind_eq_ok.mp written
    refine bind_eq_ok.mpr ⟨trees, mapM_eq_ok.mpr ?_, same⟩
    rw [Form.list, List.forall₂_map_left_iff]
    refine forall₂_of_written (mapM_eq_ok.mp each) proper ?_
    exact fun part tree => returns.again
  faults {parts fault} proper failed := by
    obtain failed | ⟨trees, -, failed⟩ := bind_eq_error.mp failed
    · obtain ⟨part, member, failed⟩ := fault_of_mapM failed
      exact returns.faults (proper part member) failed
    · exact absurd failed pure_ne_error
  present written := by
    obtain ⟨trees, -, same⟩ := bind_eq_ok.mp written
    obtain rfl := pure_eq_ok.mp same
    rintro ⟨⟩

theorem decodeEntry_eq_ok {key : Codec Text} {item : Codec Item} {entry : Value × Value}
    {found : Text × Item} :
    decodeEntry key item entry = .ok found ↔
      key.decode entry.1 = .ok found.1 ∧ item.decode entry.2 = .ok found.2 := by
  unfold decodeEntry
  rw [Decoded.both_eq_ok, Decoded.under_eq_ok, Decoded.under_eq_ok, Decoded.under_eq_ok]

theorem encodeEntry_eq_ok {item : Codec Item} {entry : Text × Item} {member : String × Json} :
    (do return (entry.1.lossy, ← item.encode entry.2)) = .ok member ↔
      entry.1.lossy = member.1 ∧ item.encode entry.2 = .ok member.2 := by
  simp only [bind_eq_ok, pure_eq_ok, Prod.ext_iff]
  constructor
  · rintro ⟨tree, written, same, rfl⟩
    exact ⟨same, written⟩
  · rintro ⟨same, written⟩
    exact ⟨member.2, written, same, rfl⟩

/-- What is written of a table and the plain table have the same names, and what holds of the plain
parts and their trees holds throughout. -/
theorem forall₂_plain {item : Codec Item} {form : Form Item} {entries : Table Item}
    {members : List (String × Json)} {related : Json → Item → Prop}
    (each : entries.mapM (fun entry => do return (entry.1.lossy, ← item.encode entry.2)) =
      .ok members)
    (proper : form.table.proper entries)
    (step : ∀ part tree, form.proper part → item.encode part = .ok tree →
      related tree (form.plain part)) :
    List.Forall₂ (Table.Renames Text.plain related) (Table.ofList members)
      (form.table.plain entries) := by
  refine Table.forall₂_ofList (fun _ _ => Text.plain.inj) ?_
  rw [List.forall₂_map_right_iff]
  refine (forall₂_of_written (mapM_eq_ok.mp each) proper ?_).flip
  intro entry member properEntry writtenEntry
  obtain ⟨sameName, writtenPart⟩ := encodeEntry_eq_ok.mp writtenEntry
  exact ⟨congrArg Text.plain sameName.symm, step _ _ properEntry writtenPart⟩

/-- A table whose names are read as they are written. Equal names share a place in the tree that is
written just as they do in the plain table. -/
theorem Codec.Returns.tableBy {key : Codec Text} {item : Codec Item} {form : Form Item}
    (returns : item.Returns form)
    (named : ∀ name : String, key.decode (.str name) = .ok (.plain name)) :
    (Codec.tableBy key item).Sound form.table where
  reads {value entries} clean read := by
    simp only [Codec.tableBy] at read
    split at read
    · next found opened =>
      obtain ⟨listed, readAll, rfl⟩ := map_eq_ok.mp read
      have each := List.forall₂_map_left_iff.mp (Decoded.all_eq_ok.mp readAll)
      have proper : ∀ entry ∈ listed, form.proper entry.2 := by
        refine forall_mem_of_forall₂ each fun entry member result readEntry => ?_
        have clean := (Value.clean_hereditary.of_mem_entries? clean opened member).2
        exact returns.reads clean (decodeEntry_eq_ok.mp readEntry).2
      exact fun entry member => proper entry (Table.mem_of_mem_ofList member)
    · nomatch read
  back {entries tree} proper written := by
    obtain ⟨members, each, same⟩ := bind_eq_ok.mp written
    obtain rfl := pure_eq_ok.mp same
    have related : List.Forall₂ (Table.Renames Text.plain fun tree part =>
        item.decode (Json.toValue tree) = .ok part) _ _ :=
      forall₂_plain each proper fun _ _ => returns.back
    simp only [Codec.tableBy, Json.entries?_toValue_object, Json.toEntries_eq_map]
    refine map_eq_ok.mpr ⟨form.table.plain entries, Decoded.all_eq_ok.mpr ?_,
      Table.ofList_of_nodup (Table.nodup_ofList _)⟩
    rw [List.forall₂_map_left_iff, List.forall₂_map_left_iff]
    refine related.imp fun member entry both => decodeEntry_eq_ok.mpr ⟨?_, both.2⟩
    rw [named, both.1]
  again {entries tree} proper written := by
    obtain ⟨members, each, same⟩ := bind_eq_ok.mp written
    obtain rfl := pure_eq_ok.mp same
    have related : List.Forall₂ (Table.Renames Text.plain fun tree part =>
        item.encode part = .ok tree) _ _ :=
      forall₂_plain each proper fun _ _ => returns.again
    refine bind_eq_ok.mpr ⟨Table.ofList members, mapM_eq_ok.mpr ?_, ?_⟩
    · refine related.flip.imp fun entry member both => encodeEntry_eq_ok.mpr ⟨?_, both.2⟩
      rw [← both.1, Text.lossy_plain]
    · rw [Table.ofList_of_nodup (Table.nodup_ofList members)]
      rfl
  faults {entries fault} proper failed := by
    obtain failed | ⟨members, -, failed⟩ := bind_eq_error.mp failed
    · obtain ⟨entry, member, failed⟩ := fault_of_mapM failed
      obtain failed | ⟨tree, -, failed⟩ := bind_eq_error.mp failed
      · exact returns.faults (proper entry member) failed
      · exact absurd failed pure_ne_error
    · exact absurd failed pure_ne_error
  present written := by
    obtain ⟨members, -, same⟩ := bind_eq_ok.mp written
    obtain rfl := pure_eq_ok.mp same
    rintro ⟨⟩

/-- Names are written as texts without surrogates, and any text is read as a name. -/
theorem Codec.Returns.table {item : Codec Item} {form : Form Item} (returns : item.Returns form) :
    (Codec.table item).Sound form.table :=
  returns.tableBy fun _ => rfl

/-- What is known with one form is known with any that is the same. -/
theorem Codec.Sound.congr {codec : Codec Part} {form other : Form Part} (sound : codec.Sound form)
    (proper : ∀ part, other.proper part ↔ form.proper part)
    (plain : ∀ part, other.plain part = form.plain part) : codec.Sound other := by
  have same : form = other := by
    obtain ⟨formProper, formPlain⟩ := form
    obtain ⟨otherProper, otherPlain⟩ := other
    obtain rfl : otherProper = formProper := funext fun part => propext (proper part)
    obtain rfl : otherPlain = formPlain := funext plain
    rfl
  exact same ▸ sound

theorem Codec.Sound.exactList {item : Codec Item} (sound : item.Sound .exact) :
    (Codec.list item).Sound .exact :=
  sound.list.congr (fun _ => ⟨fun _ _ _ => trivial, fun _ => trivial⟩)
    fun items => (List.map_id items).symm

/-! ### Keys -/

/-- The keys do not get in each other's way. -/
def Key.Apart (first second : Key) : Prop :=
  first.name ≠ second.name ∧ first.name ≠ second.alternative ∧ second.name ≠ first.alternative

instance (first second : Key) : Decidable (first.Apart second) :=
  inferInstanceAs (Decidable (_ ∧ _))

/-- The first member of a name is the one that is found. -/
theorem get?_toEntries_append (name : String) (first second : List (String × Json)) :
    Value.get? name (Json.toEntries (first ++ second)) =
      (Value.get? name (Json.toEntries first)).or (Value.get? name (Json.toEntries second)) := by
  induction first with
  | nil => rfl
  | cons member rest inductionHypothesis =>
    rw [List.cons_append, Json.toEntries, Json.toEntries, Value.get?, Value.get?]
    split
    · rfl
    · exact inductionHypothesis

theorem get?_toEntries_eq_none {name : String} {members : List (String × Json)}
    (absent : ∀ member ∈ members, member.1 ≠ name) :
    Value.get? name (Json.toEntries members) = none := by
  induction members with
  | nil => rfl
  | cons member rest inductionHypothesis =>
    obtain ⟨other, absentRest⟩ := List.forall_mem_cons.mp absent
    rw [Json.toEntries, Value.get?, if_neg fun same => other (Text.plain.inj same)]
    exact inductionHypothesis absentRest

/-- The key is not the key of any of the members. -/
def Key.Misses (key : Key) (members : List (String × Json)) : Prop :=
  ∀ member ∈ members, member.1 ≠ key.name ∧ member.1 ≠ key.alternative

theorem Key.Misses.get? {key : Key} {members : List (String × Json)} (misses : key.Misses members) :
    Value.get? key.name (Json.toEntries members) = none ∧
      Value.get? key.alternative (Json.toEntries members) = none :=
  ⟨get?_toEntries_eq_none fun member inside => (misses member inside).1,
    get?_toEntries_eq_none fun member inside => (misses member inside).2⟩

/-- Members that have nothing to do with a key may be left out behind others. -/
theorem Key.Misses.find?_left {key : Key} {first second : List (String × Json)}
    (misses : key.Misses second) :
    key.find? (Json.toEntries (first ++ second)) = key.find? (Json.toEntries first) := by
  obtain ⟨noName, noAlternative⟩ := misses.get?
  rw [Key.find?, Key.find?, get?_toEntries_append, get?_toEntries_append, noName, noAlternative,
    Option.or_none, Option.or_none]

/-- They may be left out in front as well. -/
theorem Key.Misses.find?_right {key : Key} {first second : List (String × Json)}
    (misses : key.Misses first) :
    key.find? (Json.toEntries (first ++ second)) = key.find? (Json.toEntries second) := by
  obtain ⟨noName, noAlternative⟩ := misses.get?
  rw [Key.find?, Key.find?, get?_toEntries_append, get?_toEntries_append, noName, noAlternative,
    Option.none_or, Option.none_or]

/-! ### Fields -/

/-- The fields return what a form of the record says of them. `keys` are the keys of the fields,
`view` is what they come back as, and `result` is what is known of whatever they read. -/
structure Fields.Sound (fields : Fields Record Part) (form : Form Record) (keys : List Key)
    (view : Record → Part) (result : Part → Prop) : Prop where
  reads : ∀ {entries part}, Value.cleanEntries entries → fields.decode entries = .ok part →
    result part
  named : ∀ {record members}, fields.encode record = .ok members →
    ∀ member ∈ members, ∃ key ∈ keys, member.1 = key.name
  back : ∀ {record members entries}, form.proper record → fields.encode record = .ok members →
    keys.Pairwise Key.Apart →
    (∀ key ∈ keys, key.find? entries = key.find? (Json.toEntries members)) →
    fields.decode entries = .ok (view record)
  again : ∀ {record members}, form.proper record → fields.encode record = .ok members →
    fields.encode (form.plain record) = .ok members
  faults : ∀ {record fault}, form.proper record → fields.encode record = .error fault →
    fault ≠ .notUnicode

namespace Fields

variable {form : Form Record}

theorem map_decode {build : Part → Rest} {fields : Fields Record Part}
    {entries : List (Value × Value)} {rest : Rest} :
    (build <$> fields).decode entries = .ok rest ↔
      ∃ part, fields.decode entries = .ok part ∧ build part = rest :=
  map_eq_ok

theorem seq_decode {first : Fields Record (Part → Rest)} {second : Fields Record Part}
    {entries : List (Value × Value)} {rest : Rest} :
    (first <*> second).decode entries = .ok rest ↔
      ∃ build part, first.decode entries = .ok build ∧ second.decode entries = .ok part ∧
        build part = rest := by
  refine map_eq_ok.trans ?_
  simp only [Decoded.both_eq_ok, Prod.exists, and_assoc]

theorem seq_encode {first : Fields Record (Part → Rest)} {second : Fields Record Part}
    {record : Record} {members : List (String × Json)} :
    (first <*> second).encode record = .ok members ↔
      ∃ front back, first.encode record = .ok front ∧ second.encode record = .ok back ∧
        front ++ back = members := by
  refine bind_eq_ok.trans ?_
  simp only [bind_eq_ok, pure_eq_ok]
  constructor
  · rintro ⟨front, writtenFront, back, writtenBack, same⟩
    exact ⟨front, back, writtenFront, writtenBack, same⟩
  · rintro ⟨front, back, writtenFront, writtenBack, same⟩
    exact ⟨front, writtenFront, back, writtenBack, same⟩

namespace Sound

/-- The first fields of a record. -/
theorem map (form : Form Record) {build : Part → Rest} {fields : Fields Record Part}
    {keys : List Key} {view : Record → Part} {proper : Part → Prop} {result : Rest → Prop}
    (sound : Fields.Sound fields form keys view proper)
    (builds : ∀ part, proper part → result (build part)) :
    Fields.Sound (build <$> fields) form keys (fun record => build (view record)) result where
  reads clean read := by
    obtain ⟨part, readPart, rfl⟩ := map_decode.mp read
    exact builds part (sound.reads clean readPart)
  named := sound.named
  back proper written apart found :=
    map_decode.mpr ⟨_, sound.back proper written apart found, rfl⟩
  again := sound.again
  faults := sound.faults

/-- What is written for other keys has nothing to do with a key that is apart from them. -/
theorem misses_of_named {key : Key} {keys : List Key} {members : List (String × Json)}
    (named : ∀ member ∈ members, ∃ other ∈ keys, member.1 = other.name)
    (apart : ∀ other ∈ keys, other.name ≠ key.name ∧ other.name ≠ key.alternative) :
    key.Misses members := by
  intro member inside
  obtain ⟨other, known, same⟩ := named member inside
  rw [same]
  exact apart other known

/-- Fields behind others: what is known of the first fields holds whatever these are given. -/
theorem seq {first : Fields Record (Part → Rest)} {second : Fields Record Part}
    {firstKeys secondKeys : List Key} {firstView : Record → Part → Rest}
    {secondView : Record → Part} {proper : Part → Prop} {result : Rest → Prop}
    (soundFirst : Fields.Sound first form firstKeys firstView
      fun build => ∀ part, proper part → result (build part))
    (soundSecond : Fields.Sound second form secondKeys secondView proper) :
    Fields.Sound (first <*> second) form (firstKeys ++ secondKeys)
      (fun record => firstView record (secondView record)) result where
  reads clean read := by
    obtain ⟨build, part, readBuild, readPart, rfl⟩ := seq_decode.mp read
    exact soundFirst.reads clean readBuild part (soundSecond.reads clean readPart)
  named written member inside := by
    obtain ⟨front, back, writtenFront, writtenBack, rfl⟩ := seq_encode.mp written
    obtain inside | inside := List.mem_append.mp inside
    · obtain ⟨key, known, same⟩ := soundFirst.named writtenFront member inside
      exact ⟨key, List.mem_append_left _ known, same⟩
    · obtain ⟨key, known, same⟩ := soundSecond.named writtenBack member inside
      exact ⟨key, List.mem_append_right _ known, same⟩
  back proper written apart found := by
    obtain ⟨front, back, writtenFront, writtenBack, rfl⟩ := seq_encode.mp written
    obtain ⟨apartFirst, apartSecond, across⟩ := List.pairwise_append.mp apart
    refine seq_decode.mpr ⟨_, _, soundFirst.back proper writtenFront apartFirst ?_,
      soundSecond.back proper writtenBack apartSecond ?_, rfl⟩
    · intro key known
      rw [found key (List.mem_append_left _ known)]
      refine (misses_of_named (soundSecond.named writtenBack) fun other knownOther => ?_).find?_left
      obtain ⟨names, -, alternative⟩ := across key known other knownOther
      exact ⟨names.symm, alternative⟩
    · intro key known
      rw [found key (List.mem_append_right _ known)]
      refine (misses_of_named (soundFirst.named writtenFront)
        fun other knownOther => ?_).find?_right
      obtain ⟨names, alternative, -⟩ := across other knownOther key known
      exact ⟨names, alternative⟩
  again proper written := by
    obtain ⟨front, back, writtenFront, writtenBack, rfl⟩ := seq_encode.mp written
    exact seq_encode.mpr ⟨front, back, soundFirst.again proper writtenFront,
      soundSecond.again proper writtenBack, rfl⟩
  faults proper failed := by
    obtain failed | ⟨front, -, failed⟩ := bind_eq_error.mp failed
    · exact soundFirst.faults proper failed
    · obtain failed | ⟨back, -, failed⟩ := bind_eq_error.mp failed
      · exact soundSecond.faults proper failed
      · exact absurd failed pure_ne_error

/-- The fields of a part of the record. -/
theorem part {Inner : Type} {fields : Fields Inner Part} {inner : Form Inner} {keys : List Key}
    {view : Inner → Part} {result : Part → Prop} {get : Record → Inner}
    (sound : Fields.Sound fields inner keys view result)
    (proper : ∀ record, form.proper record → inner.proper (get record))
    (same : ∀ record, get (form.plain record) = inner.plain (get record) := by intro; rfl) :
    Fields.Sound (fields.part get) form keys (fun record => view (get record)) result where
  reads := sound.reads
  named := sound.named
  back properRecord := sound.back (proper _ properRecord)
  again {record members} properRecord written := by
    have again := sound.again (proper record properRecord) written
    rw [← same record] at again
    exact again
  faults properRecord := sound.faults (proper _ properRecord)

end Sound

/-! ### One field -/

theorem clean_of_get? {name : String} {entries : List (Value × Value)} {value : Value}
    (clean : Value.cleanEntries entries) (found : Value.get? name entries = some value) :
    value.clean := by
  obtain ⟨key, member⟩ := Value.mem_of_get? found
  exact ((Value.cleanEntries_iff entries).mp clean _ member).2

/-- What stands under a key of clean entries is clean. -/
theorem clean_of_find? {key : Key} {entries : List (Value × Value)} {name : String} {value : Value}
    (clean : Value.cleanEntries entries) (found : key.find? entries = some (name, value)) :
    value.clean := by
  obtain ⟨other, member⟩ := Key.mem_of_find? found
  exact ((Value.cleanEntries_iff entries).mp clean _ member).2

theorem find?_own (key : Key) (tree : Json) :
    key.find? (Json.toEntries [(key.name, tree)]) = some (key.name, tree.toValue) := by
  rw [Key.find?, Json.toEntries, Value.get?, if_pos rfl]

/-- Only null is read as null. -/
theorem toValue_ne_null {tree : Json} (present : tree ≠ .null) : tree.toValue ≠ .null := by
  cases tree with
  | null => exact absurd rfl present
  | _ => exact nofun

section

variable {codec : Codec Part} {inner : Form Part} {key : Key}

/-- A field that is written as one member is looked up there. -/
theorem find?_of_single {tree : Json} {entries : List (Value × Value)}
    (found : ∀ other ∈ [key], other.find? entries =
      other.find? (Json.toEntries [(key.name, tree)])) :
    key.find? entries = some (key.name, tree.toValue) := by
  rw [found key (List.mem_singleton_self key), find?_own]

theorem single_eq_ok {part : Part} {members : List (String × Json)} :
    (do return [(key.name, ← codec.encode part)]) = .ok members ↔
      ∃ tree, codec.encode part = .ok tree ∧ [(key.name, tree)] = members := by
  simp only [bind_eq_ok, pure_eq_ok]

theorem fault_of_single {part : Part} {fault : EncodeFault}
    (failed : (do return [(key.name, ← codec.encode part)]) = .error fault) :
    codec.encode part = .error fault := by
  obtain failed | ⟨tree, -, failed⟩ := bind_eq_error.mp failed
  · exact failed
  · exact absurd failed pure_ne_error

/-- What is written of a field that may be absent: nothing, or its part as one member. -/
theorem encode_optional_eq_ok {get : Record → Option Part} {record : Record}
    {members : List (String × Json)} :
    (Fields.optional key codec get).encode record = .ok members ↔
      get record = none ∧ members = [] ∨
        ∃ part tree, get record = some part ∧ codec.encode part = .ok tree ∧
          members = [(key.name, tree)] := by
  simp only [Fields.optional]
  cases get record with
  | none => simp [eq_comm]
  | some part =>
    refine single_eq_ok.trans ?_
    simp [eq_comm]

/-- A field fails as its part does, and one that is absent never. -/
theorem fault_of_optional {get : Record → Option Part} {record : Record} {fault : EncodeFault}
    (failed : (Fields.optional key codec get).encode record = .error fault) :
    ∃ part, get record = some part ∧ codec.encode part = .error fault := by
  simp only [Fields.optional] at failed
  cases part : get record with
  | none =>
    rw [part] at failed
    nomatch failed
  | some found =>
    rw [part] at failed
    exact ⟨found, rfl, fault_of_single failed⟩

/-- A field that may be absent, given what is known of the values that are not null. -/
theorem sound_optional {get : Record → Option Part}
    (reads : ∀ value part, value.clean → value ≠ .null → codec.decode value = .ok part →
      inner.proper part)
    (back : ∀ part tree, inner.proper part → codec.encode part = .ok tree →
      tree ≠ .null ∧ codec.decode tree.toValue = .ok (inner.plain part) ∧
        codec.encode (inner.plain part) = .ok tree)
    (faults : ∀ part fault, inner.proper part → codec.encode part = .error fault →
      fault ≠ .notUnicode)
    (same : ∀ record, get (form.plain record) = (get record).map inner.plain)
    (proper : ∀ record, form.proper record → ∀ part ∈ get record, inner.proper part) :
    Fields.Sound (optional key codec get) form [key] (fun record => (get record).map inner.plain)
      fun found => ∀ part ∈ found, inner.proper part where
  reads {entries part} clean read := by
    simp only [optional] at read
    split at read
    · obtain rfl := Except.ok.inj read
      exact nofun
    · obtain rfl := Except.ok.inj read
      exact nofun
    · next name value present found =>
      obtain ⟨found', readFound, rfl⟩ := map_eq_ok.mp read
      rintro part ⟨⟩
      exact reads value _ (clean_of_find? clean found) present (Decoded.under_eq_ok.mp readFound)
  named {record members} written := by
    obtain ⟨-, rfl⟩ | ⟨part, tree, -, -, rfl⟩ := encode_optional_eq_ok.mp written
    · exact nofun
    · rintro member (_ | ⟨_, ⟨⟩⟩)
      exact ⟨key, List.mem_singleton_self key, rfl⟩
  back {record members entries} properRecord written _ found := by
    simp only [optional]
    obtain ⟨absent, rfl⟩ | ⟨part, tree, held, writtenPart, rfl⟩ :=
      encode_optional_eq_ok.mp written
    · rw [absent, found key (List.mem_singleton_self key)]
      rfl
    · obtain ⟨present, readBack, -⟩ := back _ _ (proper record properRecord _ held) writtenPart
      rw [held, find?_of_single found]
      split
      · next absent => nomatch absent
      · next other null =>
        exact absurd (Prod.mk.inj (Option.some.inj null)).2 (toValue_ne_null present)
      · next name value _ own =>
        obtain ⟨rfl, rfl⟩ := Prod.mk.inj (Option.some.inj own)
        exact map_eq_ok.mpr ⟨_, Decoded.under_eq_ok.mpr readBack, rfl⟩
  again {record members} properRecord written := by
    rw [encode_optional_eq_ok, same]
    obtain ⟨absent, rfl⟩ | ⟨part, tree, held, writtenPart, rfl⟩ :=
      encode_optional_eq_ok.mp written
    · exact Or.inl ⟨congrArg (Option.map inner.plain) absent, rfl⟩
    · obtain ⟨-, -, again⟩ := back _ _ (proper record properRecord _ held) writtenPart
      exact Or.inr ⟨_, tree, congrArg (Option.map inner.plain) held, again, rfl⟩
  faults {record fault} properRecord failed := by
    obtain ⟨part, held, failed⟩ := fault_of_optional failed
    exact faults _ _ (proper record properRecord _ held) failed

namespace Sound

/-- The parts of a sound codec are no nulls where they are written, so they are not taken for
absent. -/
theorem optional {get : Record → Option Part} (sound : codec.Sound inner)
    (proper : ∀ record, form.proper record → ∀ part ∈ get record, inner.proper part)
    (same : ∀ record, get (form.plain record) = (get record).map inner.plain := by intro; rfl) :
    Fields.Sound (optional key codec get) form [key] (fun record => (get record).map inner.plain)
      fun found => ∀ part ∈ found, inner.proper part :=
  sound_optional (fun _ _ clean _ => sound.reads clean)
    (fun _ _ properPart written => ⟨sound.present written, sound.back properPart written,
      sound.again properPart written⟩)
    (fun _ _ => sound.faults) same proper

/-- Free data that are null are taken for absent, so a proper field is not null. -/
theorem free {room : Nat} {get : Record → Option Value} (le : room ≤ stepLimit)
    (proper : ∀ record, form.proper record → ∀ value ∈ get record, Form.freeField.proper value)
    (same : ∀ record, get (form.plain record) = (get record).map plainValue := by intro; rfl) :
    Fields.Sound (Fields.optional key (Codec.anything room) get) form [key]
      (fun record => (get record).map plainValue)
      fun found => ∀ value ∈ found, Form.freeField.proper value := by
  have returns := Codec.anything_returns le
  refine sound_optional ?_ ?_ ?_ same proper
  · intro value part clean present read
    obtain rfl := Except.ok.inj read
    exact ⟨clean, present⟩
  · intro value tree properValue written
    exact ⟨plainData_ne_null properValue.1 properValue.2 written,
      returns.back properValue.1 written, returns.again properValue.1 written⟩
  · exact fun value fault properValue => returns.faults properValue.1

/-- Exact parts are proper in any case, and the field keeps its view. -/
theorem optionalExact {get : Record → Option Part} (sound : codec.Sound .exact)
    (same : ∀ record, get (form.plain record) = get record := by intro; rfl) :
    Fields.Sound (Fields.optional key codec get) form [key] get fun _ => True := by
  have view : get = fun record => (get record).map Form.exact.plain :=
    funext fun record => Option.map_id_apply.symm
  have sameMapped : ∀ record, get (form.plain record) = (get record).map Form.exact.plain :=
    fun record => (same record).trans (congrFun view record)
  have whole : Fields.Sound (Fields.optional key codec get) form [key] _ _ :=
    optional sound (fun _ _ _ _ => trivial) sameMapped
  rw [← view] at whole
  exact ⟨fun _ _ => trivial, whole.named, whole.back, whole.again, whole.faults⟩

/-- A field that is always written. -/
theorem written {fields : Fields Record Part} {get : Record → Part} (returns : codec.Returns inner)
    (encode : ∀ record, fields.encode record = do return [(key.name, ← codec.encode (get record))])
    (reads : ∀ entries part, Value.cleanEntries entries → fields.decode entries = .ok part →
      inner.proper part)
    (decode : ∀ entries name value, key.find? entries = some (name, value) →
      fields.decode entries = (codec.decode value).under (.name name))
    (same : ∀ record, get (form.plain record) = inner.plain (get record))
    (proper : ∀ record, form.proper record → inner.proper (get record)) :
    Fields.Sound fields form [key] (fun record => inner.plain (get record)) inner.proper where
  reads := reads _ _
  named {record members} written := by
    rw [encode] at written
    obtain ⟨tree, -, rfl⟩ := single_eq_ok.mp written
    rintro member (_ | ⟨_, ⟨⟩⟩)
    exact ⟨key, List.mem_singleton_self key, rfl⟩
  back {record members entries} properRecord written _ found := by
    rw [encode] at written
    obtain ⟨tree, writtenPart, rfl⟩ := single_eq_ok.mp written
    rw [decode entries _ _ (find?_of_single found)]
    exact Decoded.under_eq_ok.mpr (returns.back (proper record properRecord) writtenPart)
  again {record members} properRecord written := by
    rw [encode] at written ⊢
    obtain ⟨tree, writtenPart, rfl⟩ := single_eq_ok.mp written
    rw [same]
    exact single_eq_ok.mpr ⟨tree, returns.again (proper record properRecord) writtenPart, rfl⟩
  faults {record fault} properRecord failed := by
    rw [encode] at failed
    exact returns.faults (proper record properRecord) (fault_of_single failed)

/-- Where the field is absent the default is read, which has to be proper. -/
theorem defaulted {value : Part} {get : Record → Part} (returns : codec.Returns inner)
    (properDefault : inner.proper value)
    (proper : ∀ record, form.proper record → inner.proper (get record))
    (same : ∀ record, get (form.plain record) = inner.plain (get record) := by intro; rfl) :
    Fields.Sound (Fields.defaulted key codec value get) form [key]
      (fun record => inner.plain (get record)) inner.proper := by
  refine written returns (fun _ => rfl) (fun entries part clean read => ?_)
    (fun entries name value found => by simp only [Fields.defaulted, found]) same proper
  simp only [Fields.defaulted] at read
  split at read
  · obtain rfl := Except.ok.inj read
    exact properDefault
  · next found => exact returns.reads (clean_of_find? clean found) (Decoded.under_eq_ok.mp read)

theorem defaultedExact {value : Part} {get : Record → Part} (sound : codec.Sound .exact)
    (same : ∀ record, get (form.plain record) = get record := by intro; rfl) :
    Fields.Sound (Fields.defaulted key codec value get) form [key] get fun _ => True :=
  defaulted sound.toReturns trivial (fun _ _ => trivial) same

/-- Where the field is absent nothing is read. -/
theorem required {get : Record → Part} (returns : codec.Returns inner)
    (proper : ∀ record, form.proper record → inner.proper (get record))
    (same : ∀ record, get (form.plain record) = inner.plain (get record) := by intro; rfl) :
    Fields.Sound (Fields.required key codec get) form [key]
      (fun record => inner.plain (get record)) inner.proper := by
  refine written returns (fun _ => rfl) (fun entries part clean read => ?_)
    (fun entries name value found => by simp only [Fields.required, found]) same proper
  simp only [Fields.required] at read
  split at read
  · nomatch Decoded.under_eq_ok.mp read
  · next found => exact returns.reads (clean_of_find? clean found) (Decoded.under_eq_ok.mp read)

end Sound

end

end Fields

/-! ### Records -/

theorem Codec.record_encode {fields : Fields Record Record} {record : Record} {tree : Json} :
    (Codec.record fields).encode record = .ok tree ↔
      ∃ members, fields.encode record = .ok members ∧ .object members = tree := by
  refine bind_eq_ok.trans ?_
  simp only [pure_eq_ok]

/-- A record is read from the entries of a mapping. -/
theorem Codec.record_decode {fields : Fields Record Record} {value : Value}
    {entries : List (Value × Value)} (opened : value.entries? = some entries) :
    (Codec.record fields).decode value = fields.decode entries := by
  simp only [Codec.record, opened]

/-- A record returns what its fields return, if their keys are apart. -/
theorem Codec.sound_record {fields : Fields Record Record} {form : Form Record} {keys : List Key}
    {view : Record → Record} (sound : Fields.Sound fields form keys view form.proper)
    (apart : keys.Pairwise Key.Apart) (whole : ∀ record, view record = form.plain record) :
    (Codec.record fields).Sound form where
  reads {value record} clean read := by
    simp only [Codec.record] at read
    split at read
    · next entries opened =>
      exact sound.reads (Value.cleanEntries_of_entries? clean opened) read
    · nomatch read
  back {record tree} proper written := by
    obtain ⟨members, writtenFields, rfl⟩ := Codec.record_encode.mp written
    rw [Codec.record_decode (Json.entries?_toValue_object members), ← whole]
    exact sound.back proper writtenFields apart fun _ _ => rfl
  again {record tree} proper written := by
    obtain ⟨members, writtenFields, same⟩ := Codec.record_encode.mp written
    exact Codec.record_encode.mpr ⟨members, sound.again proper writtenFields, same⟩
  faults {record fault} proper failed := by
    obtain failed | ⟨members, -, failed⟩ := bind_eq_error.mp failed
    · exact sound.faults proper failed
    · exact absurd failed pure_ne_error
  present written := by
    obtain ⟨members, -, rfl⟩ := Codec.record_encode.mp written
    exact nofun

/-- What is written is an object, and its names are the names of these keys. -/
def Codec.WritesKeys (codec : Codec Part) (keys : List Key) : Prop :=
  ∀ part tree, codec.encode part = .ok tree → ∃ members, tree = .object members ∧
    ∀ member ∈ members, ∃ key ∈ keys, member.1 = key.name

theorem Codec.sound_record_keys {fields : Fields Record Record} {form : Form Record}
    {keys : List Key} {view : Record → Record}
    (sound : Fields.Sound fields form keys view form.proper) (apart : keys.Pairwise Key.Apart)
    (whole : ∀ record, view record = form.plain record) :
    (Codec.record fields).Sound form ∧ (Codec.record fields).WritesKeys keys := by
  refine ⟨Codec.sound_record sound apart whole, fun record tree written => ?_⟩
  obtain ⟨members, writtenFields, same⟩ := Codec.record_encode.mp written
  exact ⟨members, same.symm, sound.named writtenFields⟩

end GoApiDoc.Document
