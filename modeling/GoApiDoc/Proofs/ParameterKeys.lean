/-
This file says when the parameters of a path have distinct keys. A path comes into the document
with its first description, taken as it is, and every later description is merged into the one
that is there. Merging adds a parameter only if its key is neither there nor among those added
before it, so it never brings a key twice, and it never takes one away. Whether the keys of a path
are distinct is therefore decided by its first description, whatever else a run applies and
wherever it fails.
-/

import GoApiDoc.Proofs.Assembly

namespace GoApiDoc

open Document

/-! ### Parameters that are new -/

/-- The parameters that are new have distinct keys, none of them seen before. -/
theorem nodup_newParameters (seen : List (Text × Text)) (parameters : List Parameter) :
    ((newParameters seen parameters).map Parameter.key).Nodup ∧
      ∀ parameter ∈ newParameters seen parameters, parameter.key ∉ seen := by
  induction parameters generalizing seen with
  | nil => exact ⟨.nil, fun _ member => nomatch member⟩
  | cons parameter rest inductionHypothesis =>
    rw [newParameters]
    split
    · exact inductionHypothesis seen
    · next unseen =>
      rw [List.contains_iff_mem] at unseen
      obtain ⟨distinct, fresh⟩ := inductionHypothesis (parameter.key :: seen)
      constructor
      · refine List.nodup_cons.mpr ⟨fun repeated => ?_, distinct⟩
        obtain ⟨other, member, same⟩ := List.mem_map.mp repeated
        exact fresh other member (same ▸ List.mem_cons_self)
      · refine List.forall_mem_cons.mpr ⟨unseen, fun other member known => ?_⟩
        exact fresh other member (List.mem_cons_of_mem _ known)

/-- Whether no two parameters of a list have the same key. -/
def DistinctKeys (parameters : Option (List Parameter)) : Prop :=
  ((parameters.getD []).map Parameter.key).Nodup

instance (parameters : Option (List Parameter)) : Decidable (DistinctKeys parameters) :=
  inferInstanceAs (Decidable ((parameters.getD []).map Parameter.key).Nodup)

/-- Merging repeats no key that was not repeated before. -/
theorem distinctKeys_mergeParameters (earlier later : Option (List Parameter)) :
    DistinctKeys (mergeParameters earlier later) ↔ DistinctKeys earlier := by
  unfold mergeParameters
  split
  · rfl
  · rfl
  · next parameters _ =>
    obtain ⟨distinct, fresh⟩ :=
      nodup_newParameters ((earlier.getD []).map Parameter.key) parameters
    rw [DistinctKeys, DistinctKeys, Option.getD_some, List.map_append, List.nodup_append]
    refine ⟨fun both => both.1, fun kept => ⟨kept, distinct, fun key member other added same => ?_⟩⟩
    obtain ⟨parameter, memberAdded, rfl⟩ := List.mem_map.mp added
    exact fresh parameter memberAdded (same ▸ member)

/-! ### Descriptions of a path -/

theorem distinctKeys_foldl_merge (first : PathItem) (items : List PathItem) :
    DistinctKeys (items.foldl PathItem.merge first).parameters ↔ DistinctKeys first.parameters := by
  induction items generalizing first with
  | nil => rfl
  | cons item rest inductionHypothesis =>
    rw [List.foldl_cons, inductionHypothesis]
    exact distinctKeys_mergeParameters first.parameters item.parameters

/-- The first of several descriptions decides about the keys of all of them together. -/
theorem distinctKeys_mergedItem {items : List PathItem} {merged : PathItem}
    (result : mergedItem items = some merged) :
    ∃ first, items.head? = some first ∧
      (DistinctKeys merged.parameters ↔ DistinctKeys first.parameters) := by
  cases items with
  | nil => nomatch result
  | cons first rest =>
    obtain rfl := Option.some.inj result
    exact ⟨first, rfl, distinctKeys_foldl_merge first rest⟩

/-! ### Runs that go on after faults -/

/-- The document after directives of which those that fail are left behind. -/
def applyAll (document : Document) (directives : List Directive) : Document :=
  directives.foldl (fun document directive => (applyDirective document directive).document) document

theorem updated_paths {Part : Type} (document : Document) (read : Except DirectiveFault Part)
    {update : Part → Document} (keeps : ∀ part, (update part).paths = document.paths) :
    (updated document read update).document.paths = document.paths := by
  cases read with
  | error fault => rfl
  | ok part => exact keeps part

theorem applySchema_paths (document : Document) (declaration : Go.Declaration) :
    (applySchema document declaration).document.paths = document.paths := by
  cases declaration with
  | type type =>
    rw [applySchema]
    cases (schemaOfDeclaration type).result with
    | error fault => rfl
    | ok schema => rfl
  | value value => rfl
  | function function => rfl

/-- A directive merges the descriptions of paths that it gives, and one that fails gives none. -/
theorem applyDirective_paths (document : Document) (directive : Directive) :
    (applyDirective document directive).document.paths =
      mergeEntries document.paths directive.pathItems := by
  unfold applyDirective
  cases kind : directive.kind with
  | info =>
    rw [Directive.pathItems_of_ne (by simp [kind])]
    exact updated_paths document _ fun _ => rfl
  | path =>
    rw [Directive.pathItems, if_pos kind]
    cases decodeAs pathsCodec directive with
    | error fault => rfl
    | ok items => exact paths_mergePaths document items
  | parameter =>
    rw [Directive.pathItems_of_ne (by simp [kind])]
    exact updated_paths document _ fun _ => rfl
  | objectSchema =>
    rw [Directive.pathItems_of_ne (by simp [kind])]
    exact applySchema_paths document directive.declaration

theorem applyAll_paths (document : Document) (directives : List Directive) :
    (applyAll document directives).paths =
      mergeEntries document.paths (directives.flatMap Directive.pathItems) := by
  induction directives generalizing document with
  | nil => rfl
  | cons directive rest inductionHypothesis =>
    rw [applyAll, List.foldl_cons, ← applyAll, inductionHypothesis, applyDirective_paths,
      List.flatMap_cons, mergeEntries, mergeEntries, mergeEntries, List.foldl_append]

/-! ### The keys of a path -/

/-- In a document that directives make of the empty one, some of which may fail, the parameters of
a path have distinct keys exactly when those of its first description have. -/
theorem distinctKeys_iff_first (directives : List Directive) (path : Text) (item : PathItem)
    (there : (path, item) ∈ (applyAll {} directives).paths) :
    ∃ first, (Table.valuesOf path (directives.flatMap Directive.pathItems)).head? = some first ∧
      (DistinctKeys item.parameters ↔ DistinctKeys first.parameters) := by
  rw [applyAll_paths] at there
  have distinct : (mergeEntries [] (directives.flatMap Directive.pathItems)).names.Nodup := by
    rw [names_mergeEntries]
    exact Table.nodup_append_newNames _ _ List.nodup_nil
  have found := (Table.get?_eq_some_iff distinct).mpr there
  rw [get?_mergeEntries] at found
  exact distinctKeys_mergedItem found

/-- A later description that repeats a key which the first one does not have. -/
theorem distinctKeys_iff_first_merged :
    let first := "/a:\n  parameters:\n  - name: id"
    let later := "/a:\n  parameters:\n  - name: at\n  - name: at"
    let directives : List Directive := [first, later].map fun body =>
      { kind := .path, declaration := .function { name := "f" }, body }
    ∃ item, (.plain "/a", item) ∈ (applyAll {} directives).paths ∧
      DistinctKeys item.parameters := by
  intro first later directives
  obtain ⟨item, found⟩ : ∃ item, Table.get? ↑"/a" (applyAll {} directives).paths = some item :=
    Option.isSome_iff_exists.mp (by decide +kernel)
  have there := Table.mem_of_get? found
  obtain ⟨description, given, same⟩ := distinctKeys_iff_first directives "/a" item there
  have distinct : (Table.valuesOf ↑"/a" (directives.flatMap Directive.pathItems)).head?.all
      (fun description => decide (DistinctKeys description.parameters)) = true := by
    decide +kernel
  rw [given, Option.all_some, decide_eq_true_eq] at distinct
  exact ⟨item, there, same.mpr distinct⟩

/-- A first description that repeats a key is taken as it is. -/
theorem first_description_repeats_key :
    let directive : Directive :=
      { kind := .path, declaration := .function { name := "f" },
        body := "/a:\n  parameters:\n  - name: id\n  - name: id" }
    (applyDirective {} directive).fault = none ∧
      ∃ item, (.plain "/a", item) ∈ (applyAll {} [directive]).paths ∧
        ¬ DistinctKeys item.parameters := by
  intro directive
  refine ⟨by decide +kernel, ?_⟩
  have repeats : (Table.get? ↑"/a" (applyAll {} [directive]).paths).any
      (fun item => decide (¬ DistinctKeys item.parameters)) = true := by
    decide +kernel
  obtain ⟨item, found, repeated⟩ := (Option.any_eq_true _ _).mp repeats
  exact ⟨item, Table.mem_of_get? found, of_decide_eq_true repeated⟩

end GoApiDoc
