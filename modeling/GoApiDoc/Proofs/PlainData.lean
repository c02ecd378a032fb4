/-
This file says how free data come back. A value of any form is written as plain data, and plain
data are a value again: a value whose times are text, whose sets are lists and whose keys are
names. Written once more, that value gives the same plain data, with the same room.

Data are clean if they hold no bytes and nothing that is no finite number. Clean data that are not
null are not written as null, and they are always text: what keeps them from being written is their
depth, a collection that holds itself, or a key that is a number without a decimal text.

A collection that holds itself is opened before one looks at what it holds. What is true of it and
of all it holds stays true when it is opened, and plain data have nothing that could be opened.
-/

import GoApiDoc.Document.Freeform
import GoApiDoc.Proofs.Reading
import GoApiDoc.Proofs.Table
import Mathlib.Data.List.Forall2

namespace GoApiDoc

open Yaml Decimal
open Go (bind_eq_ok map_eq_ok pure_eq_ok bind_eq_error map_eq_error pure_ne_error)

/-! ### Plain data as values -/

mutual

/-- The value that a tree is. -/
def Json.toValue : Json → Value
  | .null => .null
  | .bool value => .bool value
  | .int value => .int value
  | .float value => .float value
  | .str value => .str value
  | .array items => .seq (toValues items)
  | .object members => .map (toEntries members)

/-- The values that trees are. -/
def Json.toValues : List Json → List Value
  | [] => []
  | item :: rest => item.toValue :: toValues rest

/-- The entries of the mapping that members are. -/
def Json.toEntries : List (String × Json) → List (Value × Value)
  | [] => []
  | (name, value) :: rest => (.str (.plain name), value.toValue) :: toEntries rest

end

theorem Json.toValues_eq_map (items : List Json) : toValues items = items.map toValue := by
  induction items with
  | nil => rfl
  | cons item rest inductionHypothesis => rw [toValues, inductionHypothesis, List.map_cons]

theorem Json.toEntries_eq_map (members : List (String × Json)) :
    toEntries members = members.map fun member => (.str (.plain member.1), member.2.toValue) := by
  induction members with
  | nil => rfl
  | cons member rest inductionHypothesis => rw [toEntries, inductionHypothesis, List.map_cons]

/-! ### Clean data -/

mutual

/-- Whether a value holds no bytes and nothing that is no finite number. -/
def Yaml.Value.clean : Value → Bool
  | .float value => value.isFinite
  | .nan _ => false
  | .bytes _ => false
  | .seq items => cleanItems items
  | .map entries => cleanEntries entries
  | .set items => cleanItems items
  | _ => true

/-- Whether values hold no bytes and nothing that is no finite number. -/
def Yaml.Value.cleanItems : List Value → Bool
  | [] => true
  | item :: rest => clean item && cleanItems rest

/-- Whether keys and values hold no bytes and nothing that is no finite number. -/
def Yaml.Value.cleanEntries : List (Value × Value) → Bool
  | [] => true
  | (key, value) :: rest => clean key && clean value && cleanEntries rest

end

theorem Yaml.Value.cleanItems_iff (items : List Value) :
    cleanItems items ↔ ∀ item ∈ items, item.clean := by
  induction items with
  | nil => simp [cleanItems]
  | cons item rest inductionHypothesis =>
    simp [cleanItems, Bool.and_eq_true, inductionHypothesis]

theorem Yaml.Value.cleanEntries_iff (entries : List (Value × Value)) :
    cleanEntries entries ↔ ∀ entry ∈ entries, entry.1.clean ∧ entry.2.clean := by
  induction entries with
  | nil => simp [cleanEntries]
  | cons entry rest inductionHypothesis =>
    simp [cleanEntries, Bool.and_eq_true, inductionHypothesis]

/-! ### Entries of a mapping -/

/-- What is looked up is a value of the entries. -/
theorem Yaml.Value.mem_of_get? {name : String} {entries : List (Value × Value)} {value : Value}
    (found : get? name entries = some value) : ∃ key, (key, value) ∈ entries := by
  fun_induction get? name entries with
  | case1 => nomatch found
  | case2 =>
    obtain rfl := Option.some.inj found
    exact ⟨_, List.mem_cons_self⟩
  | case3 key other rest different inductionHypothesis =>
    obtain ⟨key, member⟩ := inductionHypothesis found
    exact ⟨key, List.mem_cons_of_mem _ member⟩
  | case4 entry rest noText inductionHypothesis =>
    obtain ⟨key, member⟩ := inductionHypothesis found
    exact ⟨key, List.mem_cons_of_mem _ member⟩

theorem Document.Key.mem_of_find? {key : Key} {entries : List (Value × Value)} {name : String}
    {value : Value} (found : key.find? entries = some (name, value)) :
    ∃ other, (other, value) ∈ entries := by
  unfold Key.find? at found
  split at found
  · next found' =>
    obtain ⟨-, rfl⟩ := Prod.mk.inj (Option.some.inj found)
    exact Value.mem_of_get? found'
  · obtain ⟨other, found', same⟩ := Option.map_eq_some_iff.mp found
    obtain ⟨-, rfl⟩ := Prod.mk.inj same
    exact Value.mem_of_get? found'

/-- What holds of all keys and values still does after one more of each. -/
theorem Yaml.Value.forall_mem_putEntry {holds : Value → Prop} {key value : Value}
    {entries : List (Value × Value)} (each : ∀ entry ∈ entries, holds entry.1 ∧ holds entry.2)
    (one : holds key ∧ holds value) :
    ∀ entry ∈ putEntry key value entries, holds entry.1 ∧ holds entry.2 := by
  induction entries with
  | nil => exact List.forall_mem_singleton.mpr one
  | cons entry rest inductionHypothesis =>
    obtain ⟨first, others⟩ := List.forall_mem_cons.mp each
    rw [putEntry]
    split
    · exact List.forall_mem_cons.mpr ⟨⟨first.1, one.2⟩, others⟩
    · exact List.forall_mem_cons.mpr ⟨first, inductionHypothesis others⟩

/-- Keys that are given twice leave no value that was not given. -/
theorem Yaml.Value.forall_mem_entriesOf (holds : Value → Prop) {pairs : List (Value × Value)}
    (each : ∀ pair ∈ pairs, holds pair.1 ∧ holds pair.2) :
    ∀ entry ∈ entriesOf pairs, holds entry.1 ∧ holds entry.2 := by
  refine List.foldlRecOn (motive := fun entries : List (Value × Value) =>
    ∀ entry ∈ entries, holds entry.1 ∧ holds entry.2) pairs _ nofun ?_
  exact fun entries soFar pair member => forall_mem_putEntry soFar (each pair member)

/-! ### Data within data -/

/-- The values that lie one step below a value. -/
def Yaml.Value.parts : Value → List Value
  | .seq items => items
  | .set items => items
  | .map entries => entries.map Prod.snd
  | _ => []

mutual

/-- What holds of a value whenever it holds of its parts holds of every value. -/
theorem Yaml.Value.of_parts {holds : Value → Prop}
    (step : ∀ value : Value, (∀ part ∈ value.parts, holds part) → holds value) :
    ∀ value : Value, holds value
  | .seq items => step _ (of_items step items)
  | .set items => step _ (of_items step items)
  | .map entries => step _ (of_entries step entries)
  | .null | .bool _ | .int _ | .float _ | .nan _ | .str _ | .bytes _ | .date _ | .dateTime _
  | .outer _ =>
    step _ nofun

theorem Yaml.Value.of_items {holds : Value → Prop}
    (step : ∀ value : Value, (∀ part ∈ value.parts, holds part) → holds value) :
    ∀ items : List Value, ∀ item ∈ items, holds item
  | [] => nofun
  | item :: rest => List.forall_mem_cons.mpr ⟨of_parts step item, of_items step rest⟩

theorem Yaml.Value.of_entries {holds : Value → Prop}
    (step : ∀ value : Value, (∀ part ∈ value.parts, holds part) → holds value) :
    ∀ entries : List (Value × Value), ∀ part ∈ entries.map Prod.snd, holds part
  | [] => nofun
  | (_, value) :: rest => List.forall_mem_cons.mpr ⟨of_parts step value, of_entries step rest⟩

end

/-! ### Opened collections -/

theorem Yaml.Value.withOuterItems_eq_map (whole : Value) (height : Nat) (items : List Value) :
    withOuterItems whole height items = items.map (withOuter whole height) := by
  induction items with
  | nil => rfl
  | cons item rest inductionHypothesis =>
    rw [withOuterItems, inductionHypothesis, List.map_cons]

theorem Yaml.Value.withOuterEntries_eq_map (whole : Value) (height : Nat)
    (entries : List (Value × Value)) :
    withOuterEntries whole height entries =
      entries.map fun entry => (entry.1, withOuter whole height entry.2) := by
  induction entries with
  | nil => rfl
  | cons entry rest inductionHypothesis =>
    rw [withOuterEntries, inductionHypothesis, List.map_cons]

/-- A property that a collection has exactly if all that it holds has it. -/
structure Yaml.Value.Hereditary (holds : Value → Prop) : Prop where
  seq : ∀ items, holds (.seq items) ↔ ∀ item ∈ items, holds item
  set : ∀ items, holds (.set items) ↔ ∀ item ∈ items, holds item
  map : ∀ entries, holds (.map entries) ↔ ∀ entry ∈ entries, holds entry.1 ∧ holds entry.2

namespace Yaml.Value.Hereditary

variable {holds : Value → Prop} (hereditary : Hereditary holds)

include hereditary

theorem withOuter {whole value : Value} {height : Nat} (given : holds whole)
    (holdsValue : holds value) : holds (withOuter whole height value) := by
  induction value using Value.of_parts generalizing height with
  | step value inductionHypothesis =>
    cases value with
    | seq items =>
      rw [Value.withOuter, withOuterItems_eq_map, hereditary.seq, List.forall_mem_map]
      exact fun item member =>
        inductionHypothesis item member ((hereditary.seq items).mp holdsValue item member)
    | map entries =>
      rw [Value.withOuter, withOuterEntries_eq_map, hereditary.map, List.forall_mem_map]
      intro entry member
      obtain ⟨key, inner⟩ := (hereditary.map entries).mp holdsValue entry member
      exact ⟨key, inductionHypothesis entry.2 (List.mem_map_of_mem member) inner⟩
    | outer other =>
      rw [Value.withOuter]
      split
      · exact given
      · exact holdsValue
    | _ => exact holdsValue

/-- An item of an opened collection holds it, also where it stands for the collection itself. -/
theorem of_mem_items? {value item : Value} {items : List Value} (holdsValue : holds value)
    (opened : value.items? = some items) (member : item ∈ items) : holds item := by
  cases value with
  | seq inner =>
    rw [← Option.some.inj opened, withOuterItems_eq_map] at member
    obtain ⟨other, inside, rfl⟩ := List.mem_map.mp member
    exact hereditary.withOuter holdsValue ((hereditary.seq inner).mp holdsValue other inside)
  | set inner =>
    rw [← Option.some.inj opened] at member
    exact (hereditary.set inner).mp holdsValue item member
  | _ => nomatch opened

/-- So do the keys and values of an opened mapping. -/
theorem of_mem_entries? {value : Value} {entry : Value × Value} {entries : List (Value × Value)}
    (holdsValue : holds value) (opened : value.entries? = some entries) (member : entry ∈ entries) :
    holds entry.1 ∧ holds entry.2 := by
  cases value with
  | map inner =>
    rw [← Option.some.inj opened, withOuterEntries_eq_map] at member
    obtain ⟨other, inside, rfl⟩ := List.mem_map.mp member
    obtain ⟨key, holdsOther⟩ := (hereditary.map inner).mp holdsValue other inside
    exact ⟨key, hereditary.withOuter holdsValue holdsOther⟩
  | _ => nomatch opened

end Yaml.Value.Hereditary

/-- Opening a clean value gives clean values. -/
theorem Yaml.Value.clean_hereditary : Hereditary fun value => value.clean where
  seq := cleanItems_iff
  set := cleanItems_iff
  map := cleanEntries_iff

theorem Yaml.Value.cleanEntries_of_entries? {value : Value} {entries : List (Value × Value)}
    (clean : value.clean) (opened : value.entries? = some entries) : cleanEntries entries :=
  (cleanEntries_iff entries).mpr fun _ member =>
    clean_hereditary.of_mem_entries? clean opened member

/-- The value under a name is opened with the mapping. -/
theorem Yaml.Value.get?_withOuterEntries (whole : Value) (height : Nat) (name : String)
    (entries : List (Value × Value)) :
    get? name (withOuterEntries whole height entries) =
      (get? name entries).map (withOuter whole height) := by
  fun_induction get? name entries with
  | case1 => rfl
  | case2 value rest => simp only [withOuterEntries, get?, if_pos, Option.map_some]
  | case3 key value rest different inductionHypothesis =>
    simp only [withOuterEntries, get?, if_neg different, inductionHypothesis]
  | case4 entry rest noText inductionHypothesis =>
    obtain ⟨key, value⟩ := entry
    rw [withOuterEntries, get?, inductionHypothesis]
    exact fun text _ same => noText text value (by rw [(Prod.mk.inj same).1])

mutual

/-- Plain data hold nothing that could be opened. -/
theorem Json.withOuter_toValue (whole : Value) (height : Nat) :
    ∀ tree : Json, Value.withOuter whole height tree.toValue = tree.toValue
  | .null | .bool _ | .int _ | .float _ | .str _ => rfl
  | .array items => by
    rw [toValue, Value.withOuter, withOuterItems_toValues]
  | .object members => by
    rw [toValue, Value.withOuter, withOuterEntries_toEntries]

theorem Json.withOuterItems_toValues (whole : Value) (height : Nat) :
    ∀ items : List Json, Value.withOuterItems whole height (toValues items) = toValues items
  | [] => rfl
  | item :: rest => by
    rw [toValues, Value.withOuterItems, withOuter_toValue, withOuterItems_toValues]

theorem Json.withOuterEntries_toEntries (whole : Value) (height : Nat) :
    ∀ members : List (String × Json),
      Value.withOuterEntries whole height (toEntries members) = toEntries members
  | [] => rfl
  | (_, value) :: rest => by
    rw [toEntries, Value.withOuterEntries, withOuter_toValue, withOuterEntries_toEntries]

end

/-- No item of plain data stands for something around it, so opening leaves them as they are. -/
theorem Json.items?_toValue_array (items : List Json) :
    (Json.array items).toValue.items? = some (items.map toValue) := by
  rw [toValue, Value.items?, withOuterItems_toValues, toValues_eq_map]

theorem Json.entries?_toValue_object (members : List (String × Json)) :
    (Json.object members).toValue.entries? = some (toEntries members) := by
  rw [toValue, Value.entries?, withOuterEntries_toEntries]

namespace Document

/-! ### Writing twice -/

/-- Items are written one by one. -/
theorem plainItems_eq_ok {room : Nat} {items : List Value} {trees : List Json} :
    plainItems room items = .ok trees ↔
      List.Forall₂ (fun item tree => plainData room item = .ok tree) items trees := by
  induction items generalizing trees with
  | nil => cases trees <;> simp [plainItems]
  | cons item rest inductionHypothesis =>
    simp only [plainItems, bind_eq_ok, pure_eq_ok, inductionHypothesis]
    constructor
    · rintro ⟨tree, written, others, writtenRest, rfl⟩
      exact .cons written writtenRest
    · rintro (_ | ⟨written, writtenRest⟩)
      exact ⟨_, written, _, writtenRest, rfl⟩

/-- Members are written one by one, each with the name of its key. -/
theorem plainEntries_eq_ok {room : Nat} {entries : List (Value × Value)}
    {members : List (String × Json)} :
    plainEntries room entries = .ok members ↔
      List.Forall₂ (fun entry member => keyName entry.1 = .ok member.1 ∧
        plainData room entry.2 = .ok member.2) entries members := by
  induction entries generalizing members with
  | nil => cases members <;> simp [plainEntries]
  | cons entry rest inductionHypothesis =>
    simp only [plainEntries, bind_eq_ok, pure_eq_ok, inductionHypothesis]
    constructor
    · rintro ⟨name, named, tree, written, others, writtenRest, rfl⟩
      exact .cons ⟨named, written⟩ writtenRest
    · rintro (_ | ⟨⟨named, written⟩, writtenRest⟩)
      exact ⟨_, named, _, written, _, writtenRest, rfl⟩

/-- Without room nothing is written. -/
theorem plainData_zero (value : Value) :
    plainData 0 value = .error .tooDeep ∨ plainData 0 value = .error .endless := by
  cases value with
  | outer height => exact Or.inr rfl
  | _ => exact Or.inl rfl

theorem plainData_zero_ne_ok {value : Value} {tree : Json} : plainData 0 value ≠ .ok tree := by
  intro written
  obtain failed | failed := plainData_zero value
  · nomatch failed.symm.trans written
  · nomatch failed.symm.trans written

theorem plainItems_array {room : Nat} {items : List Value} {tree : Json} :
    (plainItems room items).map Json.array = .ok tree ↔ ∃ trees,
      List.Forall₂ (fun item tree => plainData room item = .ok tree) items trees ∧
        .array trees = tree := by
  simp only [map_eq_ok, plainItems_eq_ok]

theorem plainEntries_object {room : Nat} {entries : List (Value × Value)} {tree : Json} :
    ((plainEntries room entries).map fun members => Json.object (Table.ofList members)) = .ok tree ↔
      ∃ members, List.Forall₂ (fun entry member => keyName entry.1 = .ok member.1 ∧
        plainData room entry.2 = .ok member.2) entries members ∧
        .object (Table.ofList members) = tree := by
  simp only [map_eq_ok, plainEntries_eq_ok]

/-- More room changes nothing. -/
theorem plainData_mono {room more : Nat} {value : Value} {tree : Json} (le : room ≤ more)
    (written : plainData room value = .ok tree) : plainData more value = .ok tree := by
  induction value using Value.of_parts generalizing room more tree with
  | step value inductionHypothesis =>
    cases room with
    | zero => exact absurd written plainData_zero_ne_ok
    | succ room =>
      obtain ⟨more, rfl⟩ : ∃ other, more = other + 1 := Nat.exists_eq_add_one_of_ne_zero (by omega)
      have le : room ≤ more := Nat.le_of_succ_le_succ le
      have below : ∀ part ∈ value.parts, ∀ tree, plainData room part = .ok tree →
          plainData more part = .ok tree :=
        fun part member tree => inductionHypothesis part member le
      have items : ∀ {items : List Value}, (∀ item ∈ items, item ∈ value.parts) →
          (plainItems room items).map Json.array = .ok tree →
          (plainItems more items).map Json.array = .ok tree := by
        intro items inside writtenItems
        obtain ⟨trees, each, rfl⟩ := plainItems_array.mp writtenItems
        refine plainItems_array.mpr ⟨trees, ?_, rfl⟩
        refine ((List.forall₂_and_left _ _).mpr ⟨inside, each⟩).imp ?_
        exact fun item tree both => below item both.1 tree both.2
      cases value with
      | seq found =>
        rw [plainData] at written ⊢
        exact items (fun _ member => member) written
      | set found =>
        rw [plainData] at written ⊢
        exact items (fun _ member => member) written
      | map entries =>
        rw [plainData] at written ⊢
        obtain ⟨members, each, rfl⟩ := plainEntries_object.mp written
        refine plainEntries_object.mpr ⟨members, ?_, rfl⟩
        have inside : ∀ entry ∈ entries, entry.2 ∈ entries.map Prod.snd :=
          fun entry member => List.mem_map_of_mem member
        refine ((List.forall₂_and_left _ _).mpr ⟨inside, each⟩).imp ?_
        exact fun entry member both => ⟨both.2.1, below entry.2 both.1 member.2 both.2.2⟩
      | _ => exact written

theorem forall_mem_of_forall₂ {Item Result : Type} {relation : Item → Result → Prop}
    {holds : Result → Prop} {items : List Item} {results : List Result}
    (related : List.Forall₂ relation items results)
    (each : ∀ item ∈ items, ∀ result, relation item result → holds result) :
    ∀ result ∈ results, holds result := by
  induction related with
  | nil => nofun
  | cons head tail inductionHypothesis =>
    refine List.forall_mem_cons.mpr ⟨each _ List.mem_cons_self _ head, inductionHypothesis ?_⟩
    exact fun item member => each item (List.mem_cons_of_mem _ member)

/-- Plain data are written as they are. -/
theorem plainData_toValue {room : Nat} {value : Value} {tree : Json}
    (written : plainData room value = .ok tree) : plainData room tree.toValue = .ok tree := by
  induction value using Value.of_parts generalizing room tree with
  | step value inductionHypothesis =>
    cases room with
    | zero => exact absurd written plainData_zero_ne_ok
    | succ room =>
      have items : ∀ {items : List Value}, (∀ item ∈ items, item ∈ value.parts) →
          (plainItems room items).map Json.array = .ok tree →
          plainData (room + 1) tree.toValue = .ok tree := by
        intro items inside writtenItems
        obtain ⟨trees, each, rfl⟩ := plainItems_array.mp writtenItems
        rw [Json.toValue, plainData, Json.toValues_eq_map]
        refine plainItems_array.mpr ⟨trees, ?_, rfl⟩
        rw [List.forall₂_map_left_iff, List.forall₂_same]
        exact forall_mem_of_forall₂ each fun item member tree =>
          inductionHypothesis item (inside item member)
      cases value with
      | seq found =>
        rw [plainData] at written
        exact items (fun _ member => member) written
      | set found =>
        rw [plainData] at written
        exact items (fun _ member => member) written
      | map entries =>
        rw [plainData] at written
        obtain ⟨members, each, rfl⟩ := plainEntries_object.mp written
        rw [Json.toValue, plainData, Json.toEntries_eq_map]
        refine plainEntries_object.mpr ⟨Table.ofList members, ?_, ?_⟩
        · rw [List.forall₂_map_left_iff, List.forall₂_same]
          have again : ∀ member ∈ members, plainData room member.2.toValue = .ok member.2 :=
            forall_mem_of_forall₂ each fun entry inside member both =>
              inductionHypothesis entry.2 (List.mem_map_of_mem inside) both.2
          exact fun member within => ⟨rfl, again member (Table.mem_of_mem_ofList within)⟩
        · rw [Table.ofList_of_nodup (Table.nodup_ofList members)]
      | float number =>
        rw [plainData] at written
        cases finite : number.isFinite with
        | true =>
          rw [finite] at written
          obtain rfl := Except.ok.inj written
          rw [if_pos rfl, Json.toValue, plainData, finite]
          rfl
        | false =>
          rw [finite] at written
          obtain rfl := Except.ok.inj written
          rfl
      | bytes found =>
        rw [plainData] at written
        obtain ⟨text, -, rfl⟩ := map_eq_ok.mp written
        rfl
      | outer height => nomatch written
      | _ =>
        rw [plainData] at written
        obtain rfl := Except.ok.inj written
        rfl

/-! ### Faults -/

/-- Writing items fails as writing one of them does. -/
theorem fault_of_plainItems {room : Nat} {items : List Value} {fault : EncodeFault}
    (failed : plainItems room items = .error fault) :
    ∃ item ∈ items, plainData room item = .error fault := by
  induction items with
  | nil => nomatch failed
  | cons item rest inductionHypothesis =>
    rw [plainItems, bind_eq_error] at failed
    obtain failed | ⟨tree, -, failed⟩ := failed
    · exact ⟨item, List.mem_cons_self, failed⟩
    · obtain failed | ⟨trees, -, failed⟩ := bind_eq_error.mp failed
      · obtain ⟨other, member, failed⟩ := inductionHypothesis failed
        exact ⟨other, List.mem_cons_of_mem _ member, failed⟩
      · exact absurd failed pure_ne_error

theorem fault_of_plainEntries {room : Nat} {entries : List (Value × Value)} {fault : EncodeFault}
    (failed : plainEntries room entries = .error fault) :
    ∃ entry ∈ entries, keyName entry.1 = .error fault ∨ plainData room entry.2 = .error fault := by
  induction entries with
  | nil => nomatch failed
  | cons entry rest inductionHypothesis =>
    rw [plainEntries, bind_eq_error] at failed
    obtain failed | ⟨name, -, failed⟩ := failed
    · exact ⟨entry, List.mem_cons_self, Or.inl failed⟩
    · obtain failed | ⟨tree, -, failed⟩ := bind_eq_error.mp failed
      · exact ⟨entry, List.mem_cons_self, Or.inr failed⟩
      · obtain failed | ⟨members, -, failed⟩ := bind_eq_error.mp failed
        · obtain ⟨other, member, failed⟩ := inductionHypothesis failed
          exact ⟨other, List.mem_cons_of_mem _ member, failed⟩
        · exact absurd failed pure_ne_error

theorem fault_of_keyName {key : Value} {fault : EncodeFault} (clean : key.clean)
    (failed : keyName key = .error fault) : fault ≠ .notUnicode := by
  cases key with
  | int number =>
    rw [keyName] at failed
    split at failed
    · nomatch failed
    · rw [← Except.error.inj failed]
      exact nofun
  | bytes found => nomatch clean
  | _ => nomatch failed

/-- Clean data are text wherever they are to be. -/
theorem fault_of_plainData {room : Nat} {value : Value} {fault : EncodeFault} (clean : value.clean)
    (failed : plainData room value = .error fault) : fault ≠ .notUnicode := by
  induction value using Value.of_parts generalizing room with
  | step value inductionHypothesis =>
    cases room with
    | zero =>
      obtain known | known := plainData_zero value
      all_goals
        rw [← Except.error.inj (known.symm.trans failed)]
        exact nofun
    | succ room =>
      cases value with
      | seq items =>
        rw [plainData, map_eq_error] at failed
        obtain ⟨item, member, failed⟩ := fault_of_plainItems failed
        exact inductionHypothesis item member
          ((Value.cleanItems_iff items).mp clean item member) failed
      | set items =>
        rw [plainData, map_eq_error] at failed
        obtain ⟨item, member, failed⟩ := fault_of_plainItems failed
        exact inductionHypothesis item member
          ((Value.cleanItems_iff items).mp clean item member) failed
      | map entries =>
        rw [plainData, map_eq_error] at failed
        obtain ⟨entry, member, failed⟩ := fault_of_plainEntries failed
        obtain ⟨cleanKey, cleanValue⟩ := (Value.cleanEntries_iff entries).mp clean entry member
        obtain failed | failed := failed
        · exact fault_of_keyName cleanKey failed
        · exact inductionHypothesis entry.2 (List.mem_map_of_mem member) cleanValue failed
      | bytes found => nomatch clean
      | outer height =>
        rw [← Except.error.inj failed]
        exact nofun
      | _ =>
        rw [plainData] at failed
        nomatch failed

/-- Clean data that are not null are not written as null. -/
theorem plainData_ne_null {room : Nat} {value : Value} {tree : Json} (clean : value.clean)
    (present : value ≠ .null) (written : plainData room value = .ok tree) : tree ≠ .null := by
  cases room with
  | zero => exact absurd written plainData_zero_ne_ok
  | succ room =>
    rintro rfl
    cases value with
    | null => exact present rfl
    | float number =>
      rw [plainData, show number.isFinite = true from clean] at written
      nomatch written
    | nan node => nomatch clean
    | bytes found => nomatch clean
    | seq items =>
      rw [plainData, map_eq_ok] at written
      obtain ⟨trees, -, same⟩ := written
      nomatch same
    | set items =>
      rw [plainData, map_eq_ok] at written
      obtain ⟨trees, -, same⟩ := written
      nomatch same
    | map entries =>
      rw [plainData, map_eq_ok] at written
      obtain ⟨members, -, same⟩ := written
      nomatch same
    | _ =>
      rw [plainData] at written
      nomatch written

/-! ### The data that come back -/

/-- The value as which free data come back: the plain data that they are written as. Data that are
not written stay as they are. -/
def plainValue (value : Value) : Value :=
  ((plainData stepLimit value).toOption.map Json.toValue).getD value

theorem plainValue_eq {room : Nat} {value : Value} {tree : Json} (le : room ≤ stepLimit)
    (written : plainData room value = .ok tree) : plainValue value = tree.toValue := by
  rw [plainValue, plainData_mono le written]
  rfl

end Document

end GoApiDoc
