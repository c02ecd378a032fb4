/-
This file says which directives may change places. Two directives conflict when both describe the
interface, when both give a parameter or a schema of one name, or when both describe one path and
say something about the same field of it, or one of them says it in a way that merging does not
keep. A run of directives in an order that keeps every two conflicting ones as they were applies
again and gives the same document, up to the order of the names in its three tables.

The reason is that two directives that do not conflict commute on every document, and that a new
order is reached by moving one directive after the other to the front, past directives that it does
not conflict with. Commuting is seen name by name: the value of a name in a table after a run
depends on its value before and on what the run says about this name alone, so at most one of the
two directives has a say, except where both describe one path. There the fields are looked at one
by one, and again at most one of the two has a say.
-/

import GoApiDoc.Proofs.Assembly
import GoApiDoc.Proofs.Reading
import GoApiDoc.Proofs.Texts

namespace GoApiDoc

open Document Go Text

/-! ### Conflicts -/

/-- For each field of a path, whether it is given. -/
def Document.PathItem.given (item : PathItem) : List Bool :=
  [item.ref.isSome, item.summary.isSome, item.description.isSome, item.get.isSome, item.put.isSome,
    item.post.isSome, item.delete.isSome, item.options.isSome, item.head.isSome, item.patch.isSome,
    item.trace.isSome, item.servers.isSome, item.parameters.isSome]

/-- Whether no field is given in both descriptions of a path. -/
def Document.PathItem.apart (first second : PathItem) : Bool :=
  (first.given.zip second.given).all fun both => !(both.1 && both.2)

/-- Whether a description of a path has no empty text, no empty list and no two parameters of one
name and location. Merging passes over what is empty and over repeated parameters. -/
def Document.PathItem.plain (item : PathItem) : Bool :=
  item.ref != some "" && item.summary != some "" && item.description != some "" &&
    item.servers.all (fun servers => !servers.isEmpty) &&
    item.parameters.all fun parameters =>
      !parameters.isEmpty && decide (parameters.map Parameter.key).Nodup

/-- The name under which the schema of the declared type is stored. -/
def Directive.schemaKey? (directive : Directive) : Option Text :=
  match directive.declaration with
  | .type declaration => some (lowerFirst declaration.name)
  | _ => none

/-- Whether the order of two directives may matter. -/
def Directive.conflicts (first second : Directive) : Bool :=
  match first.kind, second.kind with
  | .info, .info => true
  | .parameter, .parameter => first.name.getD "None" == second.name.getD "None"
  | .objectSchema, .objectSchema => first.schemaKey? == second.schemaKey?
  | .path, .path =>
    first.pathItems.any fun entry => second.pathItems.any fun other =>
      entry.1 == other.1 && !(entry.2.apart other.2 && entry.2.plain && other.2.plain)
  | _, _ => false

/-- The second list is the first one in another order that keeps related items as they were: with
each item goes the place that it had, and of two related items the former one had the former
place. -/
def KeepsOrder {Item : Type} (related : Item → Item → Prop) (items reordered : List Item) : Prop :=
  ∃ placed : List (Item × Nat), placed.Perm items.zipIdx ∧ placed.map Prod.fst = reordered ∧
    placed.Pairwise fun first second => related first.1 second.1 → first.2 < second.2

/-! ### Equality up to order -/

/-- Two tables hold the same values under the same names. -/
def Table.SameEntries {α : Type} (first second : Table α) : Prop :=
  ∀ name, first.get? name = second.get? name

/-- Two tables that may be absent are both absent, or both there with the same entries. -/
def Table.SameOptional {α : Type} (first second : Option (Table α)) : Prop :=
  first.isSome = second.isSome ∧ SameEntries (first.getD []) (second.getD [])

/-- The document without the three tables that directives fill. -/
def Document.withoutTables (document : Document) : Document :=
  { document with
    paths := []
    components := { document.components with parameters := none, schemas := none } }

/-- Two documents are the same but for the order of names in the tables of paths, parameters and
schemas. -/
structure Document.SameUpToOrder (first second : Document) : Prop where
  paths : Table.SameEntries first.paths second.paths
  parameters : Table.SameOptional first.components.parameters second.components.parameters
  schemas : Table.SameOptional first.components.schemas second.components.schemas
  others : first.withoutTables = second.withoutTables

theorem Document.SameUpToOrder.refl (document : Document) : document.SameUpToOrder document :=
  ⟨fun _ => rfl, ⟨rfl, fun _ => rfl⟩, ⟨rfl, fun _ => rfl⟩, rfl⟩

theorem Document.SameUpToOrder.trans {first second third : Document}
    (former : first.SameUpToOrder second) (latter : second.SameUpToOrder third) :
    first.SameUpToOrder third where
  paths name := (former.paths name).trans (latter.paths name)
  parameters := ⟨former.parameters.1.trans latter.parameters.1,
    fun name => (former.parameters.2 name).trans (latter.parameters.2 name)⟩
  schemas := ⟨former.schemas.1.trans latter.schemas.1,
    fun name => (former.schemas.2 name).trans (latter.schemas.2 name)⟩
  others := former.others.trans latter.others

/-- Entries put into the same tables give the same tables. -/
theorem sameOptional_putAll {α : Type} {first second : Option (Table α)}
    (same : Table.SameOptional first second) (entries : List (Text × α)) :
    Table.SameOptional (putAll first entries) (putAll second entries) := by
  refine ⟨?_, fun name => ?_⟩
  · rw [putAll_isSome, putAll_isSome, same.1]
  · rw [(overlaid_putAll first entries).value, (overlaid_putAll second entries).value, same.2 name]

theorem withoutTables_after (document : Document) (directives : List Directive) :
    (document.after directives).withoutTables = { document.withoutTables with
      info := (directives.filterMap Directive.info?).getLast?.or document.withoutTables.info } :=
  rfl

/-- A run keeps documents the same. -/
theorem Document.SameUpToOrder.after {first second : Document} (same : first.SameUpToOrder second)
    (directives : List Directive) :
    (first.after directives).SameUpToOrder (second.after directives) where
  paths path := by
    rw [(assembly_after first directives).path, (assembly_after second directives).path,
      same.paths path]
  parameters := sameOptional_putAll same.parameters _
  schemas := sameOptional_putAll same.schemas _
  others := by rw [withoutTables_after, withoutTables_after, same.others]

/-! ### Two descriptions of one path -/

section

variable {α : Type} {merge : Option α → Option α → Option α}

/-- Of two later values one is absent, so their order does not matter. -/
theorem field_swap (nothing : ∀ earlier, merge earlier none = earlier) {first second : Option α}
    (apart : first = none ∨ second = none) (earlier : Option α) :
    merge (merge earlier first) second = merge (merge earlier second) first := by
  rcases apart with rfl | rfl
  · rw [nothing, nothing]
  · rw [nothing, nothing]

/-- Of two values one is absent, and the other is kept where there is nothing to merge it into. -/
theorem field_comm (nothing : ∀ earlier, merge earlier none = earlier) {first second : Option α}
    (apart : first = none ∨ second = none) (keepsFirst : merge none first = first)
    (keepsSecond : merge none second = second) : merge first second = merge second first := by
  rcases apart with rfl | rfl
  · rw [nothing, keepsSecond]
  · rw [nothing, keepsFirst]

end

theorem laterText_none (earlier : Option Text) : laterText earlier none = earlier := rfl

theorem mergeServers_none (earlier : Option (List Server)) : mergeServers earlier none = earlier :=
  rfl

theorem mergeParameters_none (earlier : Option (List Parameter)) :
    mergeParameters earlier none = earlier := rfl

/-- The later operation if there is one, else the earlier one. -/
def laterPart {α : Type} (earlier later : Option α) : Option α :=
  later.or earlier

theorem laterPart_none {α : Type} (earlier : Option α) : laterPart earlier none = earlier := rfl

theorem none_laterPart {α : Type} (later : Option α) : laterPart none later = later :=
  Option.or_none

theorem none_laterText {text : Option Text} (present : text ≠ some "") :
    laterText none text = text := by
  cases text with
  | none => rfl
  | some text =>
    have other : ¬ text.isEmpty = true := fun empty =>
      present (congrArg some (Text.isEmpty_iff.mp empty))
    exact if_neg other

theorem none_mergeServers {servers : Option (List Server)}
    (present : servers.all fun servers => !servers.isEmpty) :
    mergeServers none servers = servers := by
  match servers, present with
  | none, _ => rfl
  | some (server :: rest), _ => rfl

theorem newParameters_of_nodup {parameters : List Parameter} {seen : List (Text × Text)}
    (distinct : (parameters.map Parameter.key).Nodup)
    (fresh : ∀ parameter ∈ parameters, parameter.key ∉ seen) :
    newParameters seen parameters = parameters := by
  induction parameters generalizing seen with
  | nil => rfl
  | cons parameter rest inductionHypothesis =>
    obtain ⟨notLater, distinctRest⟩ := List.nodup_cons.mp distinct
    have new : ¬ seen.contains parameter.key = true := by
      rw [List.contains_iff_mem]
      exact fresh parameter List.mem_cons_self
    rw [newParameters, if_neg new]
    refine congrArg (parameter :: ·) (inductionHypothesis distinctRest fun other member => ?_)
    refine List.not_mem_cons_of_ne_of_not_mem (fun same => notLater ?_)
      (fresh other (List.mem_cons_of_mem _ member))
    exact same ▸ List.mem_map_of_mem member

theorem none_mergeParameters {parameters : Option (List Parameter)}
    (present : parameters.all fun parameters =>
      !parameters.isEmpty && decide (parameters.map Parameter.key).Nodup) :
    mergeParameters none parameters = parameters := by
  match parameters, present with
  | none, _ => rfl
  | some (parameter :: rest), present =>
    have distinct : ((parameter :: rest).map Parameter.key).Nodup := by simpa using present
    show some ([] ++ newParameters [] (parameter :: rest)) = _
    rw [newParameters_of_nodup distinct fun _ _ => List.not_mem_nil, List.nil_append]

/-- Merging goes field by field, in three ways. -/
theorem Document.PathItem.merge_eq (earlier later : PathItem) :
    earlier.merge later = {
      ref := laterText earlier.ref later.ref
      summary := laterText earlier.summary later.summary
      description := laterText earlier.description later.description
      get := laterPart earlier.get later.get
      put := laterPart earlier.put later.put
      post := laterPart earlier.post later.post
      delete := laterPart earlier.delete later.delete
      options := laterPart earlier.options later.options
      head := laterPart earlier.head later.head
      patch := laterPart earlier.patch later.patch
      trace := laterPart earlier.trace later.trace
      servers := mergeServers earlier.servers later.servers
      parameters := mergeParameters earlier.parameters later.parameters } := rfl

theorem Document.PathItem.apart_eq_true {first second : PathItem} (apart : first.apart second) :
    (first.ref = none ∨ second.ref = none) ∧ (first.summary = none ∨ second.summary = none) ∧
      (first.description = none ∨ second.description = none) ∧
      (first.get = none ∨ second.get = none) ∧ (first.put = none ∨ second.put = none) ∧
      (first.post = none ∨ second.post = none) ∧ (first.delete = none ∨ second.delete = none) ∧
      (first.options = none ∨ second.options = none) ∧
      (first.head = none ∨ second.head = none) ∧ (first.patch = none ∨ second.patch = none) ∧
      (first.trace = none ∨ second.trace = none) ∧
      (first.servers = none ∨ second.servers = none) ∧
      (first.parameters = none ∨ second.parameters = none) := by
  simpa only [PathItem.apart, PathItem.given, List.zip_cons_cons, List.zip_nil_right, List.all_cons,
    List.all_nil, Bool.and_true, Bool.and_eq_true, Bool.not_eq_true', Bool.and_eq_false_iff,
    Option.isSome_eq_false_iff, Option.isNone_iff_eq_none] using apart

/-- The order of two later descriptions that have no field in common does not matter. -/
theorem Document.PathItem.merge_merge_comm {first second : PathItem} (apart : first.apart second)
    (earlier : PathItem) :
    (earlier.merge first).merge second = (earlier.merge second).merge first := by
  obtain ⟨ref, summary, description, get, put, post, delete, options, head, patch, trace, servers,
    parameters⟩ := PathItem.apart_eq_true apart
  simp only [PathItem.merge_eq, PathItem.mk.injEq]
  exact ⟨field_swap laterText_none ref _, field_swap laterText_none summary _,
    field_swap laterText_none description _, field_swap laterPart_none get _,
    field_swap laterPart_none put _, field_swap laterPart_none post _,
    field_swap laterPart_none delete _, field_swap laterPart_none options _,
    field_swap laterPart_none head _, field_swap laterPart_none patch _,
    field_swap laterPart_none trace _, field_swap mergeServers_none servers _,
    field_swap mergeParameters_none parameters _⟩

/-- Of two plain descriptions that have no field in common either may come first. -/
theorem Document.PathItem.merge_comm {first second : PathItem} (apart : first.apart second)
    (firstPlain : first.plain) (secondPlain : second.plain) :
    first.merge second = second.merge first := by
  obtain ⟨ref, summary, description, get, put, post, delete, options, head, patch, trace, servers,
    parameters⟩ := PathItem.apart_eq_true apart
  simp only [PathItem.plain, Bool.and_eq_true, bne_iff_ne, and_assoc] at firstPlain secondPlain
  obtain ⟨firstRef, firstSummary, firstDescription, firstServers, firstParameters⟩ := firstPlain
  obtain ⟨secondRef, secondSummary, secondDescription, secondServers, secondParameters⟩ :=
    secondPlain
  have operations : ∀ {first second : Option Operation}, first = none ∨ second = none →
      laterPart first second = laterPart second first := fun apart =>
    field_comm laterPart_none apart (none_laterPart _) (none_laterPart _)
  simp only [PathItem.merge_eq, PathItem.mk.injEq]
  exact ⟨
    field_comm laterText_none ref (none_laterText firstRef) (none_laterText secondRef),
    field_comm laterText_none summary (none_laterText firstSummary)
      (none_laterText secondSummary),
    field_comm laterText_none description (none_laterText firstDescription)
      (none_laterText secondDescription),
    operations get, operations put, operations post, operations delete, operations options,
    operations head, operations patch, operations trace,
    field_comm mergeServers_none servers (none_mergeServers firstServers)
      (none_mergeServers secondServers),
    field_comm mergeParameters_none parameters (none_mergeParameters firstParameters)
      (none_mergeParameters secondParameters)⟩

/-! ### What a directive says of one name -/

theorem Table.valuesOf_append {α : Type} (name : Text) (first second : List (Text × α)) :
    valuesOf name (first ++ second) = valuesOf name first ++ valuesOf name second := by
  rw [valuesOf, List.filter_append, List.map_append]
  rfl

theorem Table.valuesOf_of_nodup {α : Type} {table : Table α} (distinct : table.names.Nodup)
    (name : Text) : valuesOf name table = (table.get? name).toList := by
  induction table with
  | nil => rfl
  | cons entry rest inductionHypothesis =>
    obtain ⟨first, value⟩ := entry
    obtain ⟨fresh, distinctRest⟩ := List.nodup_cons.mp distinct
    rw [valuesOf_cons, get?, inductionHypothesis distinctRest]
    by_cases same : first = name
    · subst same
      rw [if_pos rfl, if_pos rfl, (get?_eq_none_iff first rest).mpr fresh]
      rfl
    · rw [if_neg same, if_neg same]

theorem nodup_of_decode_tableBy {α : Type} {key : Codec Text} {item : Codec α}
    {value : Yaml.Value} {table : Table α}
    (decoded : (Codec.tableBy key item).decode value = .ok table) : table.names.Nodup := by
  cases value with
  | map entries =>
    obtain ⟨found, -, rfl⟩ := map_eq_ok.mp decoded
    exact Table.nodup_ofList found
  | _ => nomatch decoded

/-- A directive describes each path once. -/
theorem nodup_pathItems (directive : Directive) :
    (Table.names directive.pathItems).Nodup := by
  unfold Directive.pathItems
  split
  · cases read : decodeAs pathsCodec directive with
    | error fault => exact List.nodup_nil
    | ok items =>
      obtain ⟨value, -, decoded⟩ := bind_eq_ok.mp read
      exact nodup_of_decode_tableBy (decodeValue_eq_ok.mp decoded)
  · exact List.nodup_nil

/-- The descriptions of a path that two directives give. -/
theorem valuesOf_pathItems (path : Text) (first second : Directive) :
    Table.valuesOf path ([first, second].flatMap Directive.pathItems) =
      (Table.get? path first.pathItems).toList ++ (Table.get? path second.pathItems).toList := by
  rw [List.flatMap_cons, List.flatMap_singleton, Table.valuesOf_append,
    Table.valuesOf_of_nodup (nodup_pathItems first),
    Table.valuesOf_of_nodup (nodup_pathItems second)]

theorem kind_of_info? {directive : Directive} {info : Info} (given : directive.info? = some info) :
    directive.kind = .info := by
  by_cases kind : directive.kind = .info
  · exact kind
  · rw [Directive.info?_of_ne kind] at given
    nomatch given

theorem key_of_parameter? {directive : Directive} {entry : Text × Parameter}
    (given : directive.parameter? = some entry) :
    directive.kind = .parameter ∧ entry.1 = .plain (directive.name.getD "None") := by
  unfold Directive.parameter? at given
  split at given
  · next kind =>
    obtain ⟨parameter, -, rfl⟩ := Option.map_eq_some_iff.mp given
    exact ⟨kind, rfl⟩
  · nomatch given

theorem key_of_schema? {directive : Directive} {entry : Text × Schema}
    (given : directive.schema? = some entry) :
    directive.kind = .objectSchema ∧ directive.schemaKey? = some entry.1 := by
  unfold Directive.schema? at given
  split at given
  · next kind =>
    split at given
    · next declaration declared =>
      obtain ⟨schema, -, rfl⟩ := Option.map_eq_some_iff.mp given
      exact ⟨kind, by rw [Directive.schemaKey?, declared]⟩
    · nomatch given
  · nomatch given

theorem kind_of_mem_pathItems {directive : Directive} {entry : Text × PathItem}
    (given : entry ∈ directive.pathItems) : directive.kind = .path := by
  by_cases kind : directive.kind = .path
  · exact kind
  · rw [Directive.pathItems_of_ne kind] at given
    exact absurd given List.not_mem_nil

/-! ### Two directives -/

theorem filterMap_pair {Item Value : Type} (give : Item → Option Value) (first second : Item) :
    [first, second].filterMap give = (give first).toList ++ (give second).toList := by
  rw [List.filterMap_cons, List.filterMap_cons, List.filterMap_nil]
  cases give first <;> cases give second <;> rfl

/-- Two entries of different names may be put into a table in either order. -/
theorem sameOptional_putAll_swap {α : Type} {first second : Option (Text × α)}
    (distinct : ∀ entry ∈ first, ∀ other ∈ second, entry.1 ≠ other.1) (table : Option (Table α)) :
    Table.SameOptional (putAll table (first.toList ++ second.toList))
      (putAll table (second.toList ++ first.toList)) := by
  cases first with
  | none => rw [Option.toList_none, List.append_nil]; exact ⟨rfl, fun _ => rfl⟩
  | some entry =>
    cases second with
    | none => rw [Option.toList_none, List.append_nil]; exact ⟨rfl, fun _ => rfl⟩
    | some other =>
      refine ⟨rfl, fun name => ?_⟩
      have apart := distinct entry rfl other rfl
      rw [(overlaid_putAll _ _).value, (overlaid_putAll _ _).value]
      simp only [Option.toList_some, List.singleton_append, Table.valuesOf_cons]
      by_cases same : entry.1 = name
      · have different : other.1 ≠ name := fun otherSame => apart (same.trans otherSame.symm)
        rw [if_pos same, if_neg different, if_neg different, if_pos same]
      · rw [if_neg same, if_neg same]

section

variable {first second : Directive} (free : first.conflicts second = false)

include free

theorem info?_of_free : first.info? = none ∨ second.info? = none := by
  cases firstGiven : first.info? with
  | none => exact Or.inl rfl
  | some info =>
    cases secondGiven : second.info? with
    | none => exact Or.inr rfl
    | some other =>
      simp [Directive.conflicts, kind_of_info? firstGiven, kind_of_info? secondGiven] at free

theorem parameter?_of_free : ∀ entry ∈ first.parameter?, ∀ other ∈ second.parameter?,
    entry.1 ≠ other.1 := by
  intro entry given other otherGiven same
  obtain ⟨kind, key⟩ := key_of_parameter? given
  obtain ⟨otherKind, otherKey⟩ := key_of_parameter? otherGiven
  have distinct : (first.name.getD "None" == second.name.getD "None") = false := by
    simpa only [Directive.conflicts, kind, otherKind] using free
  exact ne_of_beq_false distinct (Text.plain.inj (key.symm.trans (same.trans otherKey)))

theorem schema?_of_free : ∀ entry ∈ first.schema?, ∀ other ∈ second.schema?,
    entry.1 ≠ other.1 := by
  intro entry given other otherGiven same
  obtain ⟨kind, key⟩ := key_of_schema? given
  obtain ⟨otherKind, otherKey⟩ := key_of_schema? otherGiven
  have distinct : (first.schemaKey? == second.schemaKey?) = false := by
    simpa only [Directive.conflicts, kind, otherKind] using free
  exact ne_of_beq_false distinct (by rw [key, otherKey, same])

theorem pathItems_of_free {path : Text} {item other : PathItem}
    (given : Table.get? path first.pathItems = some item)
    (otherGiven : Table.get? path second.pathItems = some other) :
    item.apart other ∧ item.plain ∧ other.plain := by
  have member := Table.mem_of_get? given
  have otherMember := Table.mem_of_get? otherGiven
  simp only [Directive.conflicts, kind_of_mem_pathItems member, kind_of_mem_pathItems otherMember,
    List.any_eq_false] at free
  have pair := free _ member
  simp only [List.any_eq_true, not_exists, not_and] at pair
  simpa [and_assoc] using pair _ otherMember

/-- The descriptions of a path by the two merge to the same in either order. -/
theorem mergedItem_of_free (path : Text) (earlier : Option PathItem) :
    mergedItem (earlier.toList ++
        Table.valuesOf path ([first, second].flatMap Directive.pathItems)) =
      mergedItem (earlier.toList ++
        Table.valuesOf path ([second, first].flatMap Directive.pathItems)) := by
  rw [valuesOf_pathItems, valuesOf_pathItems]
  cases given : Table.get? path first.pathItems with
  | none => rw [Option.toList_none, List.append_nil, List.nil_append]
  | some item =>
    cases otherGiven : Table.get? path second.pathItems with
    | none => rw [Option.toList_none, List.append_nil, List.nil_append]
    | some other =>
      obtain ⟨apart, plain, otherPlain⟩ := pathItems_of_free free given otherGiven
      cases earlier with
      | none => exact congrArg some (PathItem.merge_comm apart plain otherPlain)
      | some existing => exact congrArg some (PathItem.merge_merge_comm apart existing)

/-- Two directives that do not conflict may change places. -/
theorem after_swap (document : Document) :
    (document.after [first, second]).SameUpToOrder (document.after [second, first]) where
  paths path := by
    rw [(assembly_after document [first, second]).path,
      (assembly_after document [second, first]).path, mergedItem_of_free free]
  parameters := by
    simp only [Document.after, filterMap_pair]
    exact sameOptional_putAll_swap (parameter?_of_free free) _
  schemas := by
    simp only [Document.after, filterMap_pair]
    exact sameOptional_putAll_swap (schema?_of_free free) _
  others := by
    rw [withoutTables_after, withoutTables_after, filterMap_pair, filterMap_pair]
    rcases info?_of_free free with none | none
    · rw [none, Option.toList_none, List.append_nil, List.nil_append]
    · rw [none, Option.toList_none, List.append_nil, List.nil_append]

end

/-! ### Runs -/

/-- A directive moves to the front past directives that it does not conflict with. -/
theorem after_moved_front {front : List Directive} {directive : Directive}
    (free : ∀ other ∈ front, other.conflicts directive = false) (document : Document) :
    (document.after (front ++ [directive])).SameUpToOrder
      (document.after (directive :: front)) := by
  induction front generalizing document with
  | nil => exact .refl _
  | cons first rest inductionHypothesis =>
    obtain ⟨freeFirst, freeRest⟩ := List.forall_mem_cons.mp free
    have inner := inductionHypothesis freeRest (document.after [first])
    have outer := (after_swap freeFirst document).after rest
    simp only [Document.after_append, List.cons_append, List.nil_append] at inner outer
    exact inner.trans outer

/-- What holds along moves to the front holds of every order that keeps related items as they
were. -/
theorem KeepsOrder.induction {Item : Type} {related : Item → Item → Prop}
    {motive : List Item → List Item → Prop} (nil : motive [] [])
    (moved : ∀ item rest front back, (∀ other ∈ front, ¬ related other item) →
      motive rest (front ++ back) → motive (item :: rest) (front ++ item :: back))
    {items reordered : List Item} (keeps : KeepsOrder related items reordered) :
    motive items reordered := by
  obtain ⟨placed, perm, rfl, ordered⟩ := keeps
  generalize 0 = start at perm
  induction items generalizing placed start with
  | nil =>
    rw [List.zipIdx_nil, List.perm_nil] at perm
    rw [perm]
    exact nil
  | cons item rest inductionHypothesis =>
    rw [List.zipIdx_cons] at perm
    obtain ⟨front, back, rfl⟩ := List.append_of_mem (perm.mem_iff.mpr List.mem_cons_self)
    have others : (front ++ back).Perm (rest.zipIdx (start + 1)) :=
      (List.perm_middle.symm.trans perm).cons_inv
    rw [List.map_append, List.map_cons]
    refine moved item rest _ _ (fun other member isRelated => ?_) ?_
    · -- Whatever stands in front of the first item now stood behind it before.
      obtain ⟨former, inFront, rfl⟩ := List.mem_map.mp member
      have less := (List.pairwise_append.mp ordered).2.2 former inFront _ List.mem_cons_self
        isRelated
      have listed := others.mem_iff.mp (List.mem_append_left back inFront)
      have behind := (List.mem_zipIdx listed).1
      omega
    · rw [← List.map_append]
      refine inductionHypothesis _ ?_ _ others
      exact ordered.sublist ((List.sublist_cons_self _ back).append_left front)

/-- Whether a directive fails, and how, does not depend on the document. -/
theorem fault_applyDirective (first second : Document) (directive : Directive) :
    (applyDirective first directive).fault = (applyDirective second directive).fault := by
  have ofRead : ∀ {Part : Type} (read : Except DirectiveFault Part) (toFirst toSecond),
      (updated first read toFirst).fault = (updated second read toSecond).fault := by
    intro Part read toFirst toSecond
    cases read with
    | error fault => rfl
    | ok part => rfl
  unfold applyDirective
  cases directive.kind with
  | info => exact ofRead _ _ _
  | path => exact ofRead _ _ _
  | parameter => exact ofRead _ _ _
  | objectSchema =>
    cases directive.declaration with
    | type declaration =>
      simp only [applySchema]
      cases (schemaOfDeclaration declaration).result with
      | error fault => rfl
      | ok schema => rfl
    | value declaration => rfl
    | function declaration => rfl

theorem fault_applyDirectives (start : Document) (directives : List Directive) :
    (applyDirectives start directives).fault = none ↔
      ∀ directive ∈ directives, (applyDirective {} directive).fault = none := by
  induction directives generalizing start with
  | nil => exact ⟨fun _ => nofun, fun _ => rfl⟩
  | cons directive rest inductionHypothesis =>
    rw [List.forall_mem_cons, fault_applyDirective {} start, applyDirectives]
    cases applied : (applyDirective start directive).fault with
    | some fault => simp [applied]
    | none => simpa [applied] using inductionHypothesis _

theorem KeepsOrder.mem_iff {Item : Type} {related : Item → Item → Prop}
    {items reordered : List Item} (keeps : KeepsOrder related items reordered) (item : Item) :
    item ∈ reordered ↔ item ∈ items := by
  obtain ⟨placed, perm, rfl, -⟩ := keeps
  have same := (perm.map Prod.fst).mem_iff (a := item)
  rwa [List.zipIdx_map_fst] at same

/-- A run in an order that keeps conflicting directives as they were gives the same document. -/
theorem after_reordered {directives reordered : List Directive}
    (keeps : KeepsOrder (fun first second => first.conflicts second) directives reordered)
    (document : Document) :
    (document.after reordered).SameUpToOrder (document.after directives) := by
  refine KeepsOrder.induction (motive := fun directives reordered => ∀ document : Document,
    (document.after reordered).SameUpToOrder (document.after directives)) (fun _ => .refl _) ?_
    keeps document
  intro directive rest front back free inductionHypothesis document
  have front := (after_moved_front
    (fun other member => eq_false_of_ne_true (free other member)) document).after back
  have tail := inductionHypothesis (document.after [directive])
  simp only [Document.after_append, List.append_assoc, List.cons_append, List.nil_append]
    at front tail
  exact front.trans tail

/-- Directives that all apply also apply in every order that keeps conflicting ones as they were,
and give the same document up to the order of names in its tables. Whether a directive fails, and
how, does not depend on the document at all. -/
theorem applyDirectives_reordered (start : Document) (directives reordered : List Directive)
    (applies : (applyDirectives start directives).fault = none)
    (keeps : KeepsOrder (fun first second => first.conflicts second) directives reordered) :
    (applyDirectives start reordered).fault = none ∧
    (applyDirectives start reordered).document.SameUpToOrder
      (applyDirectives start directives).document ∧
    ∀ (directive : Directive) (first second : Document),
      (applyDirective first directive).fault = (applyDirective second directive).fault := by
  have appliesAgain : (applyDirectives start reordered).fault = none := by
    rw [fault_applyDirectives] at applies ⊢
    exact fun directive member => applies directive ((keeps.mem_iff directive).mp member)
  refine ⟨appliesAgain, ?_, fun directive first second =>
    fault_applyDirective first second directive⟩
  rw [applyDirectives_document start directives applies,
    applyDirectives_document start reordered appliesAgain]
  exact after_reordered keeps start

/-- Two descriptions of the interface keep their order, while a description of the operations of
a path and one of its texts change places with each other and with them. -/
theorem applyDirectives_reordered_paths :
    let path (body : String) : Directive :=
      { kind := .path, declaration := .function { name := "f" }, body }
    let info (body : String) : Directive :=
      { kind := .info, declaration := .function { name := "g" }, body }
    let first := info "title: a"
    let second := path "/p: \x7bget: \x7b\x7d\x7d"
    let third := path "/p: \x7bsummary: s\x7d"
    let fourth := info "title: b"
    let directives := [first, second, third, fourth]
    let reordered := [third, first, fourth, second]
    (applyDirectives {} directives).fault = none ∧
      KeepsOrder (fun first second => first.conflicts second) directives reordered ∧
      (applyDirectives {} reordered).fault = none ∧
      (applyDirectives {} reordered).document.SameUpToOrder
        (applyDirectives {} directives).document := by
  intro path info first second third fourth directives reordered
  have applies : (applyDirectives {} directives).fault = none := by decide +kernel
  have keeps : KeepsOrder (fun first second => first.conflicts second) directives reordered := by
    refine ⟨[(third, 2), (first, 0), (fourth, 3), (second, 1)], ?_, rfl, ?_⟩
    · decide +kernel
    · decide +kernel
  obtain ⟨appliesAgain, same, -⟩ :=
    applyDirectives_reordered {} directives reordered applies keeps
  exact ⟨applies, keeps, appliesAgain, same⟩

end GoApiDoc
