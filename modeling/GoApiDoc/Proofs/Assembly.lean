/-
This file says what document a run of directives assembles, and what a directive that fails
leaves behind.

A directive that applies says one of four things: a description of the interface, descriptions
of paths, a parameter, or a schema. What it says does not depend on the document. The document
after a run is therefore a function of where the run started and of what its directives say,
field by field: the last description of the interface stands, the last parameter and the last
schema of a name stand, the descriptions of a path are merged in order, and nothing else
changes. `Document.after` is that function as folds; `Assembly` says the same of each name on
its own, and leaves one document only.

A directive that fails changes nothing, with one exception: a schema directive puts an empty
table of schemas into a document that has none before it looks at the type.
-/

import GoApiDoc.Generate
import GoApiDoc.Proofs.SharedPaths

namespace GoApiDoc

open Document Go Text

/-! ### What a directive says -/

/-- The description of the interface that a directive gives. -/
def Directive.info? (directive : Directive) : Option Info :=
  if directive.kind = .info then (decodeAs Info.codec directive).toOption else none

/-- The descriptions of paths that a directive gives, in order. -/
def Directive.pathItems (directive : Directive) : List (Text × PathItem) :=
  if directive.kind = .path then (decodeAs pathsCodec directive).toOption.getD [] else []

/-- The parameter that a directive gives, under the name that it is stored by. -/
def Directive.parameter? (directive : Directive) : Option (Text × Parameter) :=
  if directive.kind = .parameter then
    (decodeParameter directive).toOption.map (.plain (directive.name.getD "None"), ·)
  else none

/-- The schema that a directive gives, under the name that it is stored by. -/
def Directive.schema? (directive : Directive) : Option (Text × Schema) :=
  if directive.kind = .objectSchema then
    match directive.declaration with
    | .type declaration =>
      (schemaOfDeclaration declaration).result.toOption.map
        (.plain (lowerFirst declaration.name), ·)
    | _ => none
  else none

theorem Directive.info?_of_ne {directive : Directive} (other : directive.kind ≠ .info) :
    directive.info? = none := if_neg other

theorem Directive.pathItems_of_ne {directive : Directive} (other : directive.kind ≠ .path) :
    directive.pathItems = [] := if_neg other

theorem Directive.parameter?_of_ne {directive : Directive} (other : directive.kind ≠ .parameter) :
    directive.parameter? = none := if_neg other

theorem Directive.schema?_of_ne {directive : Directive} (other : directive.kind ≠ .objectSchema) :
    directive.schema? = none := if_neg other

/-! ### The document after a run, as folds -/

/-- An optional table with entries put into it. The first entry makes the table. -/
def putAll {α : Type} (table : Option (Table α)) (entries : List (Text × α)) :
    Option (Table α) :=
  entries.foldl (fun table entry => some ((table.getD []).put entry.1 entry.2)) table

/-- The document after directives that all apply. -/
def Document.after (start : Document) (directives : List Directive) : Document :=
  { start with
    info := (directives.filterMap Directive.info?).getLast?.or start.info
    paths := mergeEntries start.paths (directives.flatMap Directive.pathItems)
    components := { start.components with
      parameters := putAll start.components.parameters (directives.filterMap Directive.parameter?)
      schemas := putAll start.components.schemas (directives.filterMap Directive.schema?) } }

theorem Document.after_singleton (start : Document) (directive : Directive) :
    start.after [directive] = { start with
      info := directive.info?.or start.info
      paths := mergeEntries start.paths directive.pathItems
      components := { start.components with
        parameters := putAll start.components.parameters directive.parameter?.toList
        schemas := putAll start.components.schemas directive.schema?.toList } } := by
  simp only [Document.after, List.filterMap_cons, List.filterMap_nil, List.flatMap_singleton]
  cases directive.info? <;> cases directive.parameter? <;> cases directive.schema? <;> rfl

theorem Document.after_append (start : Document) (first second : List Directive) :
    (start.after first).after second = start.after (first ++ second) := by
  simp only [Document.after, List.filterMap_append, List.flatMap_append, List.getLast?_append,
    putAll, mergeEntries, List.foldl_append, Option.or_assoc]

/-! ### One directive -/

theorem decodeValue_eq_ok {Part : Type} {codec : Codec Part} {value : Yaml.Value} {part : Part} :
    decodeValue codec value = .ok part ↔ codec.decode value = .ok part := by
  unfold decodeValue
  cases codec.decode value with
  | error refusal =>
    show Except.error (DirectiveFault.ofRefusal refusal) = Except.ok part ↔ _
    simp only [reduceCtorEq]
  | ok found =>
    show Except.ok found = Except.ok part ↔ _
    rw [Except.ok.injEq, Except.ok.injEq]

theorem updated_of_ok {α : Type} (document : Document) (read : Except DirectiveFault α)
    (update : α → Document) (succeeded : (updated document read update).fault = none) :
    ∃ part, read = .ok part ∧ (updated document read update).document = update part := by
  cases read with
  | error fault => exact absurd succeeded (by simp [updated])
  | ok part => exact ⟨part, rfl, rfl⟩

theorem updated_of_fault {α : Type} (document : Document) (read : Except DirectiveFault α)
    (update : α → Document) (fault : DirectiveFault)
    (failed : (updated document read update).fault = some fault) :
    (updated document read update).document = document := by
  cases read with
  | error fault => rfl
  | ok part => exact absurd failed (by simp [updated])

/-- A schema directive that applies stores the schema of the declared type. -/
theorem applySchema_of_ok (document : Document) (declaration : Declaration)
    (succeeded : (applySchema document declaration).fault = none) :
    ∃ type schema, declaration = .type type ∧ (schemaOfDeclaration type).result = .ok schema ∧
      (applySchema document declaration).document = withSchemas document
        ((document.components.schemas.getD []).put (lowerFirst type.name) schema) := by
  cases declaration with
  | type type =>
    cases derived : (schemaOfDeclaration type).result with
    | error fault => exact absurd succeeded (by simp [applySchema, derived])
    | ok schema =>
      refine ⟨type, schema, rfl, derived, ?_⟩
      simp only [applySchema, derived]
  | value value => exact absurd succeeded (by simp [applySchema])
  | function function => exact absurd succeeded (by simp [applySchema])

/-- A schema directive that fails leaves the document with the schemas that it had, or with an
empty table where it had none. -/
theorem applySchema_of_fault (document : Document) (declaration : Declaration)
    (fault : DirectiveFault) (failed : (applySchema document declaration).fault = some fault) :
    (applySchema document declaration).document =
      withSchemas document (document.components.schemas.getD []) := by
  cases declaration with
  | type type =>
    cases derived : (schemaOfDeclaration type).result with
    | error fault => simp only [applySchema, derived]
    | ok schema => exact absurd failed (by simp [applySchema, derived])
  | value value => rfl
  | function function => rfl

/-- A directive that applies makes the document that follows from what it says. -/
theorem applyDirective_document (document : Document) (directive : Directive)
    (succeeded : (applyDirective document directive).fault = none) :
    (applyDirective document directive).document = document.after [directive] := by
  rw [Document.after_singleton]
  unfold applyDirective at succeeded ⊢
  cases kind : directive.kind with
  | info =>
    rw [kind] at succeeded
    obtain ⟨info, read, result⟩ := updated_of_ok _ _ _ succeeded
    have said : directive.info? = some info := by
      rw [Directive.info?, if_pos kind, read]
      rfl
    rw [Directive.pathItems_of_ne (by simp [kind]), Directive.parameter?_of_ne (by simp [kind]),
      Directive.schema?_of_ne (by simp [kind]), said]
    exact result
  | path =>
    rw [kind] at succeeded
    obtain ⟨items, read, result⟩ := updated_of_ok _ _ _ succeeded
    have said : directive.pathItems = items := by
      rw [Directive.pathItems, if_pos kind, read]
      rfl
    rw [Directive.info?_of_ne (by simp [kind]), Directive.parameter?_of_ne (by simp [kind]),
      Directive.schema?_of_ne (by simp [kind]), said]
    exact result.trans (mergePaths_eq document items)
  | parameter =>
    rw [kind] at succeeded
    obtain ⟨parameter, read, result⟩ := updated_of_ok _ _ _ succeeded
    have said : directive.parameter? = some (.plain (directive.name.getD "None"), parameter) := by
      rw [Directive.parameter?, if_pos kind, read]
      rfl
    rw [Directive.info?_of_ne (by simp [kind]), Directive.pathItems_of_ne (by simp [kind]),
      Directive.schema?_of_ne (by simp [kind]), said]
    exact result
  | objectSchema =>
    rw [kind] at succeeded
    obtain ⟨type, schema, declared, derived, result⟩ := applySchema_of_ok _ _ succeeded
    have said : directive.schema? = some (.plain (lowerFirst type.name), schema) := by
      rw [Directive.schema?, if_pos kind, declared]
      simp only [derived]
      rfl
    rw [Directive.info?_of_ne (by simp [kind]), Directive.pathItems_of_ne (by simp [kind]),
      Directive.parameter?_of_ne (by simp [kind]), said]
    exact result

/-! ### Runs -/

/-- Applies directives one after the other, up to the first fault. -/
def applyDirectives (document : Document) : List Directive → Applied
  | [] => ⟨document, [], none⟩
  | directive :: rest =>
    let applied := applyDirective document directive
    match applied.fault with
    | some _ => applied
    | none =>
      let others := applyDirectives applied.document rest
      { others with log := applied.log ++ others.log }

theorem applyDirectives_document (start : Document) (directives : List Directive)
    (succeeded : (applyDirectives start directives).fault = none) :
    (applyDirectives start directives).document = start.after directives := by
  induction directives generalizing start with
  | nil => rfl
  | cons directive rest inductionHypothesis =>
    rw [applyDirectives] at succeeded ⊢
    cases applied : (applyDirective start directive).fault with
    | some fault => simp [applied] at succeeded
    | none =>
      simp only [applied] at succeeded ⊢
      rw [inductionHypothesis _ succeeded, applyDirective_document start directive applied,
        Document.after_append, List.singleton_append]

/-- The directives that declarations carry, in order. -/
def directivesIn (declarations : List Declaration) : List Directive :=
  declarations.filterMap fun declaration => (extractDirective declaration).toOption.join

theorem addDeclarations_document (start : Document) (declarations : List Declaration)
    (succeeded : (addDeclarations start declarations).fault = none) :
    (addDeclarations start declarations).document = start.after (directivesIn declarations) := by
  induction declarations generalizing start with
  | nil => rfl
  | cons declaration rest inductionHypothesis =>
    rw [addDeclarations] at succeeded ⊢
    have carried : directivesIn (declaration :: rest) =
        (extractDirective declaration).toOption.join.toList ++ directivesIn rest := by
      rw [directivesIn, List.filterMap_cons]
      cases (extractDirective declaration).toOption.join <;> rfl
    rw [carried]
    cases extracted : extractDirective declaration with
    | error fault => simp [extracted] at succeeded
    | ok found =>
      cases found with
      | none =>
        simp only [extracted] at succeeded ⊢
        exact inductionHypothesis _ succeeded
      | some directive =>
        cases applied : (applyDirective start directive).fault with
        | some fault => simp [extracted, applied] at succeeded
        | none =>
          simp only [extracted, applied] at succeeded ⊢
          rw [inductionHypothesis _ succeeded, applyDirective_document start directive applied,
            Document.after_append]
          rfl

/-- The directives of files, in the order of the files. -/
def directivesOf (files : List (Path × List UInt8)) : List Directive :=
  files.flatMap fun file => directivesIn ((readFile file.1.text file.2).toOption.getD [])

theorem addFiles_document (start : Document) (files : List (Path × List UInt8))
    (succeeded : (addFiles start files).fault = none) :
    (addFiles start files).document = start.after (directivesOf files) := by
  induction files generalizing start with
  | nil => rfl
  | cons file rest inductionHypothesis =>
    obtain ⟨path, content⟩ := file
    rw [addFiles] at succeeded ⊢
    rw [directivesOf, List.flatMap_cons]
    cases read : readFile path.text content with
    | error fault => simp [read] at succeeded
    | ok found =>
      cases added : (addDeclarations start found).fault with
      | some fault => simp [read, added] at succeeded
      | none =>
        simp only [read, added] at succeeded ⊢
        rw [inductionHypothesis _ succeeded, addDeclarations_document start found added,
          Document.after_append]
        rfl

theorem documentOf_document (files : List (Path × List UInt8))
    (succeeded : (documentOf files).fault = none) :
    (documentOf files).document = ({} : Document).after (directivesOf files) := by
  unfold documentOf at succeeded ⊢
  cases added : (addFiles {} files).fault with
  | some fault => simp [added] at succeeded
  | none =>
    simp only [added]
    exact addFiles_document {} files added

/-! ### The document after a run, name by name -/

/-- The merge of descriptions of one path in order, the first one taken as it is. -/
def mergedItem : List PathItem → Option PathItem
  | [] => none
  | first :: rest => some (rest.foldl PathItem.merge first)

/-- What entries make of an optional table: the last entry of a name stands, the names keep
their places and new ones follow in the order of their first appearance, and the table is
there if it was or if there is an entry. -/
structure Overlaid {α : Type} (base : Option (Table α)) (entries : List (Text × α))
    (result : Option (Table α)) : Prop where
  value : ∀ name, (result.getD []).get? name =
    (Table.valuesOf name entries).getLast?.or ((base.getD []).get? name)
  names : (result.getD []).names =
    (base.getD []).names ++ Table.newNames (base.getD []).names (entries.map Prod.fst)
  present : result.isSome = (base.isSome || !entries.isEmpty)

/-- What a run of directives makes of a document: each part on its own, and nothing else
changed. -/
structure Assembly (start : Document) (directives : List Directive) (final : Document) :
    Prop where
  info : final.info = (directives.filterMap Directive.info?).getLast?.or start.info
  parameters : Overlaid start.components.parameters (directives.filterMap Directive.parameter?)
    final.components.parameters
  schemas : Overlaid start.components.schemas (directives.filterMap Directive.schema?)
    final.components.schemas
  path : ∀ path, final.paths.get? path =
    mergedItem ((start.paths.get? path).toList ++
      Table.valuesOf path (directives.flatMap Directive.pathItems))
  pathNames : final.paths.names = start.paths.names ++
    Table.newNames start.paths.names ((directives.flatMap Directive.pathItems).map Prod.fst)
  others : final = { start with
    info := final.info
    paths := final.paths
    components := { start.components with
      parameters := final.components.parameters
      schemas := final.components.schemas } }

theorem putAll_getD {α : Type} (table : Option (Table α)) (entries : List (Text × α)) :
    (putAll table entries).getD [] =
      entries.foldl (fun table entry => table.put entry.1 entry.2) (table.getD []) := by
  induction entries generalizing table with
  | nil => rfl
  | cons entry rest inductionHypothesis =>
    rw [List.foldl_cons]
    exact inductionHypothesis (some ((table.getD []).put entry.1 entry.2))

theorem putAll_isSome {α : Type} (table : Option (Table α)) (entries : List (Text × α)) :
    (putAll table entries).isSome = (table.isSome || !entries.isEmpty) := by
  induction entries generalizing table with
  | nil => simp [putAll]
  | cons entry rest inductionHypothesis =>
    have inner := inductionHypothesis (some ((table.getD []).put entry.1 entry.2))
    simpa [putAll] using inner

/-- Putting entries into a table leaves the last entry of each name. -/
theorem overlaid_putAll {α : Type} (base : Option (Table α)) (entries : List (Text × α)) :
    Overlaid base entries (putAll base entries) where
  value name := by
    rw [putAll_getD, ← Table.foldl_last]
    exact Table.get?_foldl _ (fun _ value => some value) name
      (fun table entry => Table.get?_put entry.1 name entry.2 table) entries _
  names := by
    rw [putAll_getD]
    exact Table.names_foldl _ (fun table entry => Table.names_put entry.1 entry.2 table) entries _
  present := putAll_isSome base entries

/-- The description of a path with one more merged into it; the first is taken as it is. -/
def mergeNext : Option PathItem → PathItem → Option PathItem
  | none, item => some item
  | some existing, item => some (existing.merge item)

theorem get?_mergePath (paths : Table PathItem) (path name : Text) (item : PathItem) :
    (mergePath paths path item).get? name =
      if path = name then mergeNext (paths.get? name) item else paths.get? name := by
  unfold mergePath
  cases found : paths.get? path with
  | none =>
    rw [Table.get?_put]
    split
    · next same => rw [← same, found, mergeNext]
    · rfl
  | some existing =>
    rw [Table.get?_put]
    split
    · next same => rw [← same, found, mergeNext]
    · rfl

theorem names_mergePath (paths : Table PathItem) (path : Text) (item : PathItem) :
    (mergePath paths path item).names = Table.withName paths.names path := by
  unfold mergePath
  cases paths.get? path with
  | none => exact Table.names_put path item paths
  | some existing => exact Table.names_put path _ paths

theorem foldl_mergeNext_some (items : List PathItem) (first : PathItem) :
    items.foldl mergeNext (some first) = some (items.foldl PathItem.merge first) := by
  induction items generalizing first with
  | nil => rfl
  | cons item rest inductionHypothesis => exact inductionHypothesis (first.merge item)

theorem foldl_mergeNext (items : List PathItem) (start : Option PathItem) :
    items.foldl mergeNext start = mergedItem (start.toList ++ items) := by
  cases start with
  | some first => exact foldl_mergeNext_some items first
  | none =>
    cases items with
    | nil => rfl
    | cons item rest => exact foldl_mergeNext_some rest item

theorem get?_mergeEntries (paths : Table PathItem) (entries : List (Text × PathItem))
    (path : Text) : (mergeEntries paths entries).get? path =
      mergedItem ((paths.get? path).toList ++ Table.valuesOf path entries) := by
  rw [← foldl_mergeNext]
  exact Table.get?_foldl _ mergeNext path
    (fun paths entry => get?_mergePath paths entry.1 path entry.2) entries paths

theorem names_mergeEntries (paths : Table PathItem) (entries : List (Text × PathItem)) :
    (mergeEntries paths entries).names =
      paths.names ++ Table.newNames paths.names (entries.map Prod.fst) :=
  Table.names_foldl _ (fun paths entry => names_mergePath paths entry.1 entry.2) entries paths

/-- The folds give each part what the directives say of it. -/
theorem assembly_after (start : Document) (directives : List Directive) :
    Assembly start directives (start.after directives) where
  info := rfl
  parameters := overlaid_putAll _ _
  schemas := overlaid_putAll _ _
  path := get?_mergeEntries _ _
  pathNames := names_mergeEntries _ _
  others := rfl

/-! ### Only one document is assembled -/

/-- Whether no name is repeated in the three tables that directives change. -/
def Document.NamesDistinct (document : Document) : Prop :=
  document.paths.names.Nodup ∧ (document.components.parameters.getD []).names.Nodup ∧
    (document.components.schemas.getD []).names.Nodup

theorem Overlaid.unique {α : Type} {base : Option (Table α)} {entries : List (Text × α)}
    {first second : Option (Table α)} (distinct : (base.getD []).names.Nodup)
    (isFirst : Overlaid base entries first) (isSecond : Overlaid base entries second) :
    first = second := by
  have tables : first.getD [] = second.getD [] := by
    refine Table.ext_of_nodup ?_ (isFirst.names.trans isSecond.names.symm) fun name =>
      (isFirst.value name).trans (isSecond.value name).symm
    rw [isFirst.names]
    exact Table.nodup_append_newNames _ _ distinct
  have present := isFirst.present.trans isSecond.present.symm
  cases first with
  | none =>
    cases second with
    | none => rfl
    | some table => simp at present
  | some table =>
    cases second with
    | none => simp at present
    | some other => exact congrArg some tables

/-- What a run makes of a document with distinct names is one document. -/
theorem Assembly.unique {start first second : Document} {directives : List Directive}
    (distinct : start.NamesDistinct) (isFirst : Assembly start directives first)
    (isSecond : Assembly start directives second) : first = second := by
  obtain ⟨distinctPaths, distinctParameters, distinctSchemas⟩ := distinct
  have paths : first.paths = second.paths := by
    refine Table.ext_of_nodup ?_ (isFirst.pathNames.trans isSecond.pathNames.symm) fun path =>
      (isFirst.path path).trans (isSecond.path path).symm
    rw [isFirst.pathNames]
    exact Table.nodup_append_newNames _ _ distinctPaths
  rw [isFirst.others, isSecond.others, isFirst.info.trans isSecond.info.symm, paths,
    isFirst.parameters.unique distinctParameters isSecond.parameters,
    isFirst.schemas.unique distinctSchemas isSecond.schemas]

/-- The document after directives that all apply, and the document of files that are all read
and added without a fault, are the assembly of what their directives say: of the start where
the run began in the first case, of the empty document in the second. Where the names of the
start are distinct no other document is. -/
theorem run_assembles (start : Document) (directives : List Directive)
    (files : List (Path × List UInt8)) :
    ((applyDirectives start directives).fault = none →
      Assembly start directives (applyDirectives start directives).document ∧
        (start.NamesDistinct → ∀ other, Assembly start directives other →
          other = (applyDirectives start directives).document)) ∧
    ((documentOf files).fault = none →
      Assembly {} (directivesOf files) (documentOf files).document ∧
        ∀ other, Assembly {} (directivesOf files) other →
          other = (documentOf files).document) := by
  constructor
  · intro succeeded
    rw [applyDirectives_document start directives succeeded]
    have assembled := assembly_after start directives
    exact ⟨assembled, fun distinct other isOther => isOther.unique distinct assembled⟩
  · intro succeeded
    rw [documentOf_document files succeeded]
    have assembled := assembly_after {} (directivesOf files)
    refine ⟨assembled, fun other isOther => isOther.unique ?_ assembled⟩
    exact ⟨List.nodup_nil, List.nodup_nil, List.nodup_nil⟩

/-- A run that merges into a path that is there and adds a schema, and the document of one
file. -/
theorem run_assembles_merging :
    let start : Document := { paths := [("a", { summary := some "old" })] }
    let directives : List Directive := [
      { kind := .path, declaration := .function { name := "f" }, body := "a: \x7b\x7d" },
      { kind := .objectSchema, declaration := .type { name := "T", fields := some [] } }]
    let source := "//gopenapi:objectSchema\ntype T int"
    let files : List (Path × List UInt8) :=
      [({ parts := ["t.go"] }, source.toList.map fun char => UInt8.ofNat char.toNat)]
    ((applyDirectives start directives).fault = none ∧
      Assembly start directives (applyDirectives start directives).document) ∧
    (documentOf files).fault = none ∧
      Assembly {} (directivesOf files) (documentOf files).document := by
  intro start directives source files
  have applies : (applyDirectives start directives).fault = none := by decide +kernel
  have runs : (documentOf files).fault = none :=
    Option.isNone_iff_eq_none.mp (by decide +kernel)
  obtain ⟨ofDirectives, ofFiles⟩ := run_assembles start directives files
  exact ⟨⟨applies, (ofDirectives applies).1⟩, runs, (ofFiles runs).1⟩

/-! ### Directives that fail -/

theorem withSchemas_getD (document : Document) :
    withSchemas document (document.components.schemas.getD []) = document ↔
      document.components.schemas ≠ none := by
  constructor
  · intro same absent
    have present := congrArg (fun document => document.components.schemas.isSome) same
    simp [withSchemas, absent] at present
  · intro present
    obtain ⟨schemas, found⟩ := Option.ne_none_iff_exists'.mp present
    rw [found, Option.getD_some, withSchemas, ← found]

/-- A directive that fails leaves the document as it was, unless it is a schema directive and
the document has no table of schemas; a schema directive leaves an empty table there. -/
theorem applyDirective_of_fault (document : Document) (directive : Directive)
    (fault : DirectiveFault) (failed : (applyDirective document directive).fault = some fault) :
    ((applyDirective document directive).document = document ↔
      ¬(directive.kind = .objectSchema ∧ document.components.schemas = none)) ∧
    (directive.kind = .objectSchema → (applyDirective document directive).document =
      withSchemas document (document.components.schemas.getD [])) := by
  unfold applyDirective at failed ⊢
  cases kind : directive.kind with
  | info =>
    rw [kind] at failed
    simpa using updated_of_fault _ _ _ fault failed
  | path =>
    rw [kind] at failed
    simpa using updated_of_fault _ _ _ fault failed
  | parameter =>
    rw [kind] at failed
    simpa using updated_of_fault _ _ _ fault failed
  | objectSchema =>
    rw [kind] at failed
    have left := applySchema_of_fault document directive.declaration fault failed
    simp only [true_and, forall_const]
    rw [left]
    exact ⟨withSchemas_getD document, rfl⟩

/-- A tag with an escape that is too large, in a document that has schemas. -/
theorem applyDirective_of_fault_bad_tag :
    let document : Document := { components := { schemas := some [] } }
    let field : Field := ⟨"A", .named "int", some "json:\"\\U80000000\"", false⟩
    let directive : Directive :=
      { kind := .objectSchema, declaration := .type { name := "T", fields := some [field] } }
    (applyDirective document directive).fault = some (.badTag .escapeTooLarge) ∧
      (applyDirective document directive).document = document := by
  intro document field directive
  have failed : (applyDirective document directive).fault = some (.badTag .escapeTooLarge) := by
    decide +kernel
  refine ⟨failed, (applyDirective_of_fault document directive _ failed).1.mpr ?_⟩
  exact fun ⟨_, absent⟩ => by simp [document] at absent

/-- The same tag in the empty document: the directive fails and leaves another document. -/
theorem failed_schema_leaves_table :
    let field : Field := ⟨"A", .named "int", some "json:\"\\U80000000\"", false⟩
    let directive : Directive :=
      { kind := .objectSchema, declaration := .type { name := "T", fields := some [field] } }
    (applyDirective {} directive).fault = some (.badTag .escapeTooLarge) ∧
      (applyDirective {} directive).document ≠ {} := by
  intro field directive
  refine ⟨by decide +kernel, fun same => ?_⟩
  have present : (applyDirective {} directive).document.components.schemas.isSome := by
    decide +kernel
  rw [same] at present
  exact absurd present (by decide)

end GoApiDoc
