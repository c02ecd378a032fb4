/-
This file says that every document that declarations assemble comes back when it is written and
read. What the directives give is proper: parts that are read from clean bodies are, by what is
known of their codecs, and the schemas of Go types are, at every depth. Merging paths and putting
parameters and schemas into tables keeps a document proper, and a proper document comes back.

A document is not always written. There is room for a limited number of steps, while types may be
nested at will, and free data may hold themselves or have a number as a key that has no decimal
text. Nothing else keeps a document from being written.
-/

import GoApiDoc.Proofs.Assembly
import GoApiDoc.Proofs.DocumentReturn

namespace GoApiDoc

open Document Go Text Yaml

/-! ### Schemas of types -/

theorem proper_schemaOfName (name : String) (depth : Nat) :
    (Schema.form depth).proper (schemaOfName name) := by
  have words : ∀ entry ∈ primitiveTypes, entry.2.1 ≠ "array" ∧ entry.2.1 ≠ "object" := by decide
  refine Schema.proper_of_layers (fun inner _ => ?_) depth
  unfold schemaOfName
  split
  · next type format found =>
    obtain ⟨noArray, noObject⟩ := words _ (Table.mem_of_get? found)
    exact ⟨Annotations.proper_empty inner,
      fun same => noArray (Text.plain.inj (Option.some.inj same)),
      fun same => noObject (Text.plain.inj (Option.some.inj same))⟩
  · exact trivial

/-- Types nest at will, so their schemas are proper at every depth. -/
theorem proper_schemaOfType {type : TypeRef} {schema : Schema}
    (derived : schemaOfType type = some schema) (depth : Nat) :
    (Schema.form depth).proper schema := by
  induction type generalizing schema depth with
  | named name =>
    rw [← Option.some.inj derived]
    exact proper_schemaOfName name depth
  | qualified package name =>
    rw [← Option.some.inj derived]
    exact proper_schemaOfName _ depth
  | pointer element inductionHypothesis => exact inductionHypothesis derived depth
  | sequence element length inductionHypothesis =>
    obtain ⟨items, derivedItems, rfl⟩ := Option.map_eq_some_iff.mp derived
    refine Schema.proper_of_layers (fun inner below => ?_) depth
    exact ⟨Annotations.proper_empty inner, below items (inductionHypothesis derivedItems)⟩
  | mapping key value keyHypothesis valueHypothesis =>
    obtain ⟨values, derivedValues, rfl⟩ := Option.map_eq_some_iff.mp derived
    refine Schema.proper_of_layers (fun inner below => ?_) depth
    refine ⟨Annotations.proper_empty inner, nofun, ?_⟩
    rintro additional ⟨⟩
    exact below values (valueHypothesis derivedValues)
  | other text => nomatch derived

theorem proper_propertiesOf {type : String} {fields : List Field}
    {properties : List (Text × Schema)}
    (derived : (propertiesOf type fields).result = .ok properties) (depth : Nat) :
    ∀ entry ∈ properties, (Schema.form depth).proper entry.2 := by
  induction fields generalizing properties with
  | nil =>
    obtain rfl := Except.ok.inj derived
    exact nofun
  | cons field rest inductionHypothesis =>
    rw [propertiesOf] at derived
    split at derived
    · nomatch derived
    · split at derived
      · split at derived
        · exact inductionHypothesis derived
        · exact inductionHypothesis derived
      · split at derived
        · exact inductionHypothesis derived
        · next schema derivedSchema =>
          obtain ⟨others, derivedOthers, rfl⟩ := map_eq_ok.mp derived
          exact List.forall_mem_cons.mpr ⟨proper_schemaOfType derivedSchema depth,
            inductionHypothesis derivedOthers⟩

theorem proper_schemaOfDeclaration {declaration : TypeDeclaration} {schema : Schema}
    (derived : (schemaOfDeclaration declaration).result = .ok schema) (depth : Nat) :
    (Schema.form depth).proper schema := by
  unfold schemaOfDeclaration at derived
  split at derived
  · split at derived
    · next schema derivedSchema =>
      obtain rfl := Except.ok.inj derived
      obtain ⟨type, -, derivedType⟩ := Option.bind_eq_some_iff.mp derivedSchema
      exact proper_schemaOfType derivedType depth
    · obtain rfl := Except.ok.inj derived
      refine Schema.proper_of_layers (fun inner _ => ?_) depth
      refine ⟨Annotations.proper_empty inner, ?_, nofun⟩
      rintro properties ⟨⟩
      exact Form.table_nil inner
  · next fields _ =>
    obtain ⟨properties, derivedProperties, rfl⟩ := map_eq_ok.mp derived
    refine Schema.proper_of_layers (fun inner below => ?_) depth
    refine ⟨Annotations.proper_empty inner, ?_, nofun⟩
    rintro table ⟨⟩
    refine fun entry member => below entry.2 fun depth => ?_
    exact proper_propertiesOf derivedProperties depth entry (Table.mem_of_mem_ofList member)

/-! ### Merging -/

theorem Form.proper_put {Item : Type} {item : Form Item} {table : Table Item} {name : Text}
    {value : Item} (proper : item.table.proper table) (properValue : item.proper value) :
    item.table.proper (table.put name value) := by
  intro entry member
  obtain rfl | member := Table.mem_put member
  · exact properValue
  · exact proper entry member

theorem forall_mem_or {Item : Type} {holds : Item → Prop} {later earlier : Option Item}
    (ofLater : ∀ item ∈ later, holds item) (ofEarlier : ∀ item ∈ earlier, holds item) :
    ∀ item ∈ later.or earlier, holds item := by
  cases later with
  | none => exact ofEarlier
  | some found => exact ofLater

/-- Items added to a list that may be absent. -/
theorem forall_mem_added {Item : Type} {holds : Item → Prop} {earlier : Option (List Item)}
    {added : List Item} (ofEarlier : ∀ items ∈ earlier, ∀ item ∈ items, holds item)
    (ofAdded : ∀ item ∈ added, holds item) :
    ∀ items ∈ some (earlier.getD [] ++ added), ∀ item ∈ items, holds item := by
  rintro items ⟨⟩ item member
  obtain member | member := List.mem_append.mp member
  · cases earlier with
    | none => nomatch member
    | some found => exact ofEarlier found rfl item member
  · exact ofAdded item member

theorem newParameters_subset (seen : List (Text × Text)) (parameters : List Parameter) :
    newParameters seen parameters ⊆ parameters := by
  induction parameters generalizing seen with
  | nil => exact List.Subset.refl _
  | cons parameter rest inductionHypothesis =>
    rw [newParameters]
    split
    · exact List.Subset.trans (inductionHypothesis seen) (List.subset_cons_self _ _)
    · exact List.cons_subset_cons _ (inductionHypothesis _)

theorem forall_mem_mergeParameters {holds : Parameter → Prop}
    {earlier later : Option (List Parameter)}
    (ofEarlier : ∀ parameters ∈ earlier, ∀ parameter ∈ parameters, holds parameter)
    (ofLater : ∀ parameters ∈ later, ∀ parameter ∈ parameters, holds parameter) :
    ∀ parameters ∈ mergeParameters earlier later, ∀ parameter ∈ parameters, holds parameter := by
  unfold mergeParameters
  split
  · exact ofEarlier
  · exact ofEarlier
  · next parameters _ =>
    refine forall_mem_added ofEarlier fun parameter member => ?_
    exact ofLater parameters rfl parameter (newParameters_subset _ _ member)

/-- Merging keeps what each of the descriptions has. -/
theorem PathItem.Proper.merge {inner : Form Operation} {earlier later : PathItem}
    (ofEarlier : PathItem.Proper inner earlier) (ofLater : PathItem.Proper inner later) :
    PathItem.Proper inner (earlier.merge later) where
  get := forall_mem_or ofLater.get ofEarlier.get
  put := forall_mem_or ofLater.put ofEarlier.put
  post := forall_mem_or ofLater.post ofEarlier.post
  delete := forall_mem_or ofLater.delete ofEarlier.delete
  options := forall_mem_or ofLater.options ofEarlier.options
  head := forall_mem_or ofLater.head ofEarlier.head
  patch := forall_mem_or ofLater.patch ofEarlier.patch
  trace := forall_mem_or ofLater.trace ofEarlier.trace
  parameters := forall_mem_mergeParameters ofEarlier.parameters ofLater.parameters

theorem proper_mergePath {paths : Table PathItem} {path : Text} {item : PathItem}
    (proper : PathItem.inner.table.proper paths) (properItem : PathItem.inner.proper item) :
    PathItem.inner.table.proper (mergePath paths path item) := by
  unfold mergePath
  split
  · exact Form.proper_put proper properItem
  · next existing found =>
    refine Form.proper_put proper ?_
    have properExisting := proper _ (Table.mem_of_get? found)
    exact PathItem.Proper.merge properExisting properItem

theorem proper_mergeEntries {paths : Table PathItem} {entries : List (Text × PathItem)}
    (proper : PathItem.inner.table.proper paths)
    (properEntries : ∀ entry ∈ entries, PathItem.inner.proper entry.2) :
    PathItem.inner.table.proper (mergeEntries paths entries) := by
  unfold mergeEntries
  induction entries generalizing paths with
  | nil => exact proper
  | cons entry rest inductionHypothesis =>
    obtain ⟨properEntry, properRest⟩ := List.forall_mem_cons.mp properEntries
    exact inductionHypothesis (proper_mergePath proper properEntry) properRest

theorem proper_putAll {Item : Type} {item : Form Item} {table : Option (Table Item)}
    {entries : List (Text × Item)} (proper : ∀ found ∈ table, item.table.proper found)
    (properEntries : ∀ entry ∈ entries, item.proper entry.2) :
    ∀ found ∈ putAll table entries, item.table.proper found := by
  unfold putAll
  induction entries generalizing table with
  | nil => exact proper
  | cons entry rest inductionHypothesis =>
    obtain ⟨properEntry, properRest⟩ := List.forall_mem_cons.mp properEntries
    refine inductionHypothesis (fun found same => ?_) properRest
    obtain rfl := Option.some.inj same
    refine Form.proper_put ?_ properEntry
    cases table with
    | none => exact Form.table_nil item
    | some earlier => exact proper earlier rfl

/-! ### What a directive gives -/

section

variable {directive : Directive} (clean : ∀ value, decodeBody directive = .ok value → value.clean)

include clean

theorem proper_pathItems : ∀ entry ∈ directive.pathItems, PathItem.inner.proper entry.2 := by
  unfold Directive.pathItems
  split
  · cases read : decodeAs pathsCodec directive with
    | error fault => exact nofun
    | ok items =>
      obtain ⟨value, readBody, readItems⟩ := bind_eq_ok.mp read
      have sound : pathsCodec.Sound PathItem.inner.table :=
        (PathItem.inner_sound (Nat.le_refl _)).tableBy fun _ => rfl
      exact sound.reads (clean value readBody) (decodeValue_eq_ok.mp readItems)
  · exact nofun

theorem proper_decodeParameter {parameter : Parameter}
    (read : decodeParameter directive = .ok parameter) : Parameter.form.proper parameter := by
  obtain ⟨value, readBody, read⟩ := bind_eq_ok.mp read
  have cleanValue := clean value readBody
  split at read
  · next entries opened =>
    refine (Parameter.sound (Nat.le_refl _)).reads ?_ (decodeValue_eq_ok.mp read)
    refine (Value.cleanEntries_iff _).mpr (Value.forall_mem_entriesOf (·.clean) ?_)
    refine List.forall_mem_cons.mpr ⟨?_, ?_⟩
    · cases directive.parameterName with
      | none => exact ⟨rfl, rfl⟩
      | some name => exact ⟨rfl, rfl⟩
    · exact fun entry => Value.clean_hereditary.of_mem_entries? cleanValue opened
  · nomatch read

theorem proper_parameter? : ∀ entry ∈ directive.parameter?, Parameter.form.proper entry.2 := by
  intro entry found
  unfold Directive.parameter? at found
  split at found
  · obtain ⟨parameter, read, rfl⟩ := Option.map_eq_some_iff.mp found
    exact proper_decodeParameter clean (eq_ok_of_toOption read)
  · nomatch found

end

theorem proper_schema? (directive : Directive) :
    ∀ entry ∈ directive.schema?, Schema.inner.proper entry.2 := by
  intro entry found
  unfold Directive.schema? at found
  split at found
  · split at found
    · obtain ⟨schema, derived, rfl⟩ := Option.map_eq_some_iff.mp found
      exact proper_schemaOfDeclaration (eq_ok_of_toOption derived) stepLimit
    · nomatch found
  · nomatch found

/-! ### Assembled documents -/

theorem Document.proper_empty : Document.Proper {} :=
  ⟨Form.table_nil _, Components.proper_empty⟩

/-- A proper document stays proper when directives with clean bodies apply. -/
theorem Document.Proper.after {start : Document} (proper : start.Proper)
    {directives : List Directive}
    (clean : ∀ directive ∈ directives, ∀ value, decodeBody directive = .ok value → value.clean) :
    (start.after directives).Proper where
  paths := by
    refine proper_mergeEntries proper.paths fun entry member => ?_
    obtain ⟨directive, carried, given⟩ := List.mem_flatMap.mp member
    exact proper_pathItems (clean directive carried) entry given
  components := { proper.components with
    schemas := by
      refine proper_putAll proper.components.schemas fun entry member => ?_
      obtain ⟨directive, -, given⟩ := List.mem_filterMap.mp member
      exact proper_schema? directive entry given
    parameters := by
      refine proper_putAll proper.components.parameters fun entry member => ?_
      obtain ⟨directive, carried, given⟩ := List.mem_filterMap.mp member
      exact proper_parameter? (clean directive carried) entry given }

end GoApiDoc
