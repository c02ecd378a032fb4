/-
This file says how descriptions of one path come together. Merging goes field by field, and each way
of merging a field is associative: the last text that is not empty stands, the last operation
stands, servers are put one behind the other, and so are parameters, less those whose key came
before. A run of descriptions may therefore be merged in any grouping, and the empty description
changes nothing.

Which parameters are new is said by their places: the key at a new place is neither seen nor the key
at an earlier place. A place behind the first parameter is new exactly when it is new among the
rest, once the first key counts as seen. That is how the scan goes on, and so it picks the
parameters at the new places, in their order.

Merging a description a second time has no effect but on the servers, which are added again. For
texts and operations that holds only right behind the first time. For parameters it holds at any
later time, because no key ever leaves a path: what is merged later adds parameters and takes none
away. A path that had no description before holds that of the table itself. Then the description
that comes a second time is the one it is merged into, and the servers that are added are those
which the path has by then.
-/

import GoApiDoc.Proofs.ParameterKeys
import GoApiDoc.Proofs.Reordering

namespace GoApiDoc

open Document

/-! ### Parameters that are new -/

/-- Only membership among the seen keys matters. -/
theorem newParameters_congr {seen others : List (Text × Text)}
    (same : ∀ key, key ∈ seen ↔ key ∈ others) (parameters : List Parameter) :
    newParameters seen parameters = newParameters others parameters := by
  induction parameters generalizing seen others with
  | nil => rfl
  | cons parameter rest inductionHypothesis =>
    have extended : ∀ key, key ∈ parameter.key :: seen ↔ key ∈ parameter.key :: others := by
      intro key
      rw [List.mem_cons, List.mem_cons, same]
    rw [newParameters, newParameters, inductionHypothesis same, inductionHypothesis extended]
    simp only [List.contains_iff_mem, same]

/-- What is new of two lists is what is new of the first, and what is new of the second after it. -/
theorem newParameters_append (seen : List (Text × Text)) (first second : List Parameter) :
    newParameters seen (first ++ second) =
      newParameters seen first ++ newParameters (first.map Parameter.key ++ seen) second := by
  induction first generalizing seen with
  | nil => rfl
  | cons parameter rest inductionHypothesis =>
    rw [List.cons_append, newParameters, newParameters]
    split
    · next known =>
      rw [List.contains_iff_mem] at known
      rw [inductionHypothesis]
      refine congrArg (newParameters seen rest ++ ·) (newParameters_congr (fun key => ?_) second)
      simp only [List.map_cons, List.cons_append, List.mem_cons, List.mem_append]
      exact ⟨Or.inr, fun either => either.elim (fun same => Or.inr (same ▸ known)) id⟩
    · rw [inductionHypothesis, List.cons_append]
      refine congrArg (parameter :: newParameters _ rest ++ ·)
        (newParameters_congr (fun key => ?_) second)
      simp only [List.map_cons, List.cons_append, List.mem_cons, List.mem_append, or_left_comm]

/-- Parameters dropped because of keys that are seen later as well need not be dropped before. -/
theorem newParameters_newParameters {known seen : List (Text × Text)} (inside : known ⊆ seen)
    (parameters : List Parameter) :
    newParameters seen (newParameters known parameters) = newParameters seen parameters := by
  induction parameters generalizing known seen with
  | nil => rfl
  | cons parameter rest inductionHypothesis =>
    by_cases early : parameter.key ∈ known
    · have late : parameter.key ∈ seen := inside early
      rw [newParameters, if_pos (List.contains_iff_mem.mpr early), newParameters,
        if_pos (List.contains_iff_mem.mpr late), inductionHypothesis inside]
    · rw [newParameters, if_neg (mt List.contains_iff_mem.mp early), newParameters, newParameters]
      split
      · next late =>
        rw [List.contains_iff_mem] at late
        exact inductionHypothesis (List.cons_subset.mpr ⟨late, inside⟩)
      · exact congrArg (parameter :: ·) (inductionHypothesis (List.cons_subset_cons _ inside))

theorem newParameters_eq_nil {seen : List (Text × Text)} {parameters : List Parameter}
    (known : parameters.map Parameter.key ⊆ seen) : newParameters seen parameters = [] := by
  induction parameters with
  | nil => rfl
  | cons parameter rest inductionHypothesis =>
    rw [List.map_cons, List.cons_subset] at known
    rw [newParameters, if_pos (List.contains_iff_mem.mpr known.1), inductionHypothesis known.2]

/-- A key is seen or among the new ones if it is seen or among all. -/
theorem mem_keys_newParameters (seen : List (Text × Text)) (parameters : List Parameter)
    (key : Text × Text) :
    key ∈ seen ∨ key ∈ (newParameters seen parameters).map Parameter.key ↔
      key ∈ seen ∨ key ∈ parameters.map Parameter.key := by
  induction parameters generalizing seen with
  | nil => rfl
  | cons parameter rest inductionHypothesis =>
    rw [newParameters]
    split
    · next known =>
      rw [List.contains_iff_mem] at known
      rw [inductionHypothesis, List.map_cons, List.mem_cons]
      exact ⟨fun either => either.imp_right Or.inr, fun either =>
        either.elim Or.inl fun among => among.elim (fun same => Or.inl (same ▸ known)) Or.inr⟩
    · have later := inductionHypothesis (parameter.key :: seen)
      simp only [List.map_cons, List.mem_cons, or_left_comm (b := key = parameter.key)]
        at later ⊢
      simpa only [or_assoc] using later

/-! ### Where the new parameters stand -/

/-- Whether the key of the parameter at a place is neither seen nor the key of one before it. -/
def IsNewAt (seen : List (Text × Text)) (parameters : List Parameter)
    (place : Fin parameters.length) : Prop :=
  (parameters.get place).key ∉ seen ∧
    ∀ earlier < place, (parameters.get earlier).key ≠ (parameters.get place).key

instance (seen : List (Text × Text)) (parameters : List Parameter) :
    DecidablePred (IsNewAt seen parameters) :=
  fun _ => inferInstanceAs (Decidable (_ ∧ _))

theorem isNewAt_zero {seen : List (Text × Text)} {parameter : Parameter}
    {rest : List Parameter} :
    IsNewAt seen (parameter :: rest) (0 : Fin (rest.length + 1)) ↔ parameter.key ∉ seen := by
  refine ⟨And.left, fun unseen => ⟨unseen, fun earlier before => ?_⟩⟩
  exact absurd before (Fin.not_lt_zero earlier)

/-- Behind a parameter its key counts as seen. -/
theorem isNewAt_succ {seen : List (Text × Text)} {parameter : Parameter}
    {rest : List Parameter} {place : Fin rest.length} :
    IsNewAt seen (parameter :: rest) place.succ ↔ IsNewAt (parameter.key :: seen) rest place := by
  have before : (∀ earlier : Fin (parameter :: rest).length, earlier < place.succ →
        ((parameter :: rest).get earlier).key ≠ (rest.get place).key) ↔
      parameter.key ≠ (rest.get place).key ∧
        ∀ earlier < place, (rest.get earlier).key ≠ (rest.get place).key := by
    refine Fin.forall_fin_succ.trans (and_congr ?_ ?_)
    · exact ⟨fun all => all place.succ_pos, fun differs _ => differs⟩
    · simp only [Fin.succ_lt_succ_iff, List.get_cons_succ']
  rw [IsNewAt, IsNewAt, List.get_cons_succ', before, List.mem_cons, not_or, ne_comm,
    and_left_comm, and_assoc]

/-- The places of the new parameters, in their order. -/
def newPlaces (seen : List (Text × Text)) (parameters : List Parameter) :
    List (Fin parameters.length) :=
  (List.finRange parameters.length).filter (IsNewAt seen parameters ·)

theorem newPlaces_cons (seen : List (Text × Text)) (parameter : Parameter)
    (rest : List Parameter) :
    newPlaces seen (parameter :: rest) =
      (if parameter.key ∈ seen then [] else [(0 : Fin (rest.length + 1))]) ++
        (newPlaces (parameter.key :: seen) rest).map Fin.succ := by
  have places : List.finRange (parameter :: rest).length =
      0 :: (List.finRange rest.length).map Fin.succ := List.finRange_succ
  have behind : ((List.finRange rest.length).map Fin.succ).filter
      (fun place => decide (IsNewAt seen (parameter :: rest) place)) =
      (newPlaces (parameter.key :: seen) rest).map Fin.succ := by
    rw [List.filter_map, newPlaces]
    refine congrArg _ (List.filter_congr fun place _ => ?_)
    exact decide_eq_decide.mpr isNewAt_succ
  rw [newPlaces, places, List.filter_cons, behind]
  simp only [decide_eq_true_eq, isNewAt_zero]
  by_cases known : parameter.key ∈ seen
  · rw [if_neg (not_not_intro known), if_pos known, List.nil_append]
  · rw [if_pos known, if_neg known, List.singleton_append]

/-- The scan that remembers the keys it has seen picks the parameters at the new places. -/
theorem newParameters_eq_map (seen : List (Text × Text)) (parameters : List Parameter) :
    newParameters seen parameters = (newPlaces seen parameters).map parameters.get := by
  induction parameters generalizing seen with
  | nil => rfl
  | cons parameter rest inductionHypothesis =>
    have first : newParameters seen [parameter] =
        (if parameter.key ∈ seen then [] else [parameter]) := by
      simp only [newParameters, List.contains_iff_mem]
    calc newParameters seen (parameter :: rest)
        = newParameters seen [parameter] ++ newParameters (parameter.key :: seen) rest :=
          newParameters_append seen [parameter] rest
      _ = (newPlaces seen (parameter :: rest)).map (parameter :: rest).get := by
          rw [inductionHypothesis, first, newPlaces_cons, List.map_append, List.map_map]
          congr 1
          split <;> rfl

/-! ### Lists that are added -/

/-- A list that may be absent with a later one added, unless the later one is absent or empty. -/
def addLater {α : Type} (add : List α → List α → List α) (earlier later : Option (List α)) :
    Option (List α) :=
  if (later.getD []).isEmpty then earlier else some (add (earlier.getD []) (later.getD []))

section

variable {α : Type} {add : List α → List α → List α}

theorem addLater_of_nil {earlier later : Option (List α)} (empty : later.getD [] = []) :
    addLater add earlier later = earlier :=
  if_pos (List.isEmpty_iff.mpr empty)

theorem addLater_of_ne_nil {earlier later : Option (List α)} (full : later.getD [] ≠ []) :
    addLater add earlier later = some (add (earlier.getD []) (later.getD [])) :=
  if_neg (mt List.isEmpty_iff.mp full)

theorem getD_addLater (unit : ∀ first, add first [] = first) (earlier later : Option (List α)) :
    (addLater add earlier later).getD [] = add (earlier.getD []) (later.getD []) := by
  by_cases empty : later.getD [] = []
  · rw [addLater_of_nil empty, empty, unit]
  · rw [addLater_of_ne_nil empty, Option.getD_some]

/-- Lists that may be absent are added associatively if lists are. -/
theorem addLater_assoc (unit : ∀ first, add first [] = first)
    (assoc : ∀ first second third, add (add first second) third = add first (add second third))
    (full : ∀ first second, second ≠ [] → add first second ≠ [])
    (first second third : Option (List α)) :
    addLater add (addLater add first second) third =
      addLater add first (addLater add second third) := by
  by_cases empty : third.getD [] = []
  · rw [addLater_of_nil empty, addLater_of_nil empty]
  · have present : (addLater add second third).getD [] ≠ [] := by
      rw [getD_addLater unit]
      exact full _ _ empty
    rw [addLater_of_ne_nil empty, addLater_of_ne_nil present, getD_addLater unit,
      getD_addLater unit, assoc]

end

theorem mergeServers_eq (earlier later : Option (List Server)) :
    mergeServers earlier later = addLater (· ++ ·) earlier later := by
  match later with
  | none => rfl
  | some [] => rfl
  | some (server :: rest) => rfl

/-- Parameters with those of a later list that are new. -/
def addParameters (kept parameters : List Parameter) : List Parameter :=
  kept ++ newParameters (kept.map Parameter.key) parameters

theorem mergeParameters_eq (earlier later : Option (List Parameter)) :
    mergeParameters earlier later = addLater addParameters earlier later := by
  match later with
  | none => rfl
  | some [] => rfl
  | some (parameter :: rest) => rfl

theorem addParameters_nil (kept : List Parameter) : addParameters kept [] = kept :=
  List.append_nil kept

theorem mem_keys_addParameters (kept parameters : List Parameter) (key : Text × Text) :
    key ∈ (addParameters kept parameters).map Parameter.key ↔
      key ∈ kept.map Parameter.key ∨ key ∈ parameters.map Parameter.key := by
  rw [addParameters, List.map_append, List.mem_append, mem_keys_newParameters]

theorem addParameters_ne_nil (kept : List Parameter) {parameters : List Parameter}
    (full : parameters ≠ []) : addParameters kept parameters ≠ [] := by
  intro empty
  obtain ⟨parameter, rest, rfl⟩ := List.exists_cons_of_ne_nil full
  have member := (mem_keys_addParameters kept (parameter :: rest) parameter.key).mpr
    (Or.inr List.mem_cons_self)
  rw [empty] at member
  exact List.not_mem_nil member

theorem addParameters_assoc (first second third : List Parameter) :
    addParameters (addParameters first second) third =
      addParameters first (addParameters second third) := by
  have seen : newParameters ((addParameters first second).map Parameter.key) third =
      newParameters (second.map Parameter.key ++ first.map Parameter.key) third := by
    refine newParameters_congr (fun key => ?_) third
    rw [mem_keys_addParameters, List.mem_append, or_comm]
  calc addParameters (addParameters first second) third
      = first ++ (newParameters (first.map Parameter.key) second ++
          newParameters (second.map Parameter.key ++ first.map Parameter.key) third) := by
        rw [addParameters, seen, addParameters, List.append_assoc]
    _ = addParameters first (addParameters second third) := by
        rw [addParameters, addParameters, newParameters_append,
          newParameters_newParameters (List.subset_append_left _ _)]

/-! ### Descriptions of a path -/

theorem laterText_assoc (first second third : Option Text) :
    laterText (laterText first second) third = laterText first (laterText second third) := by
  cases third with
  | none => rfl
  | some text =>
    by_cases empty : text.isEmpty
    · simp only [laterText, if_pos empty]
    · simp only [laterText, if_neg empty]

theorem laterPart_assoc {α : Type} (first second third : Option α) :
    laterPart (laterPart first second) third = laterPart first (laterPart second third) :=
  Option.or_assoc.symm

theorem mergeServers_assoc (first second third : Option (List Server)) :
    mergeServers (mergeServers first second) third =
      mergeServers first (mergeServers second third) := by
  simp only [mergeServers_eq]
  exact addLater_assoc List.append_nil List.append_assoc
    (fun _ _ full => List.append_ne_nil_of_right_ne_nil _ full) first second third

theorem mergeParameters_assoc (first second third : Option (List Parameter)) :
    mergeParameters (mergeParameters first second) third =
      mergeParameters first (mergeParameters second third) := by
  simp only [mergeParameters_eq]
  exact addLater_assoc addParameters_nil addParameters_assoc
    (fun kept _ full => addParameters_ne_nil kept full) first second third

theorem Document.PathItem.merge_merge (first second third : PathItem) :
    (first.merge second).merge third = first.merge (second.merge third) := by
  simp only [PathItem.merge_eq, laterText_assoc, laterPart_assoc, mergeServers_assoc,
    mergeParameters_assoc]

theorem Document.PathItem.merge_nothing (item : PathItem) : item.merge {} = item := by
  cases item
  rfl

/-- Three descriptions of a path may be merged from the first on or from the last on, and a
description that says nothing leaves the path as it is. -/
theorem Document.PathItem.merge_assoc_and_empty (first second third : PathItem) :
    (first.merge second).merge third = first.merge (second.merge third) ∧ first.merge {} = first :=
  ⟨PathItem.merge_merge first second third, PathItem.merge_nothing first⟩

/-! ### The parameters of a path -/

/-- The keys of parameters that may be absent. -/
def keysOf (parameters : Option (List Parameter)) : List (Text × Text) :=
  (parameters.getD []).map Parameter.key

theorem mem_keysOf_mergeParameters (earlier later : Option (List Parameter))
    (key : Text × Text) :
    key ∈ keysOf (mergeParameters earlier later) ↔ key ∈ keysOf earlier ∨ key ∈ keysOf later := by
  rw [mergeParameters_eq, keysOf, getD_addLater addParameters_nil, mem_keys_addParameters]
  rfl

/-- What a merged path has for parameters: those that were there, and behind them the later ones
that are new. -/
structure Document.PathItem.AddsNew (earlier later merged : PathItem) : Prop where
  listed : merged.parameters.getD [] = earlier.parameters.getD [] ++
    (newPlaces (keysOf earlier.parameters) (later.parameters.getD [])).map
      (later.parameters.getD []).get
  keys : ∀ key, key ∈ keysOf merged.parameters ↔
    key ∈ keysOf earlier.parameters ∨ key ∈ keysOf later.parameters
  distinct : DistinctKeys merged.parameters ↔ DistinctKeys earlier.parameters
  unchanged : later.parameters.getD [] = [] → merged.parameters = earlier.parameters

/-- Merging keeps the parameters of a path and adds those of the later description whose key is
neither there nor before them. So the keys are those of both, none is repeated that was not, and
without later parameters nothing changes, whether there are none or an empty list of them. -/
theorem Document.PathItem.merge_parameters (earlier later : PathItem) :
    PathItem.AddsNew earlier later (earlier.merge later) where
  listed := by
    have merged : (earlier.merge later).parameters =
        addLater addParameters earlier.parameters later.parameters :=
      mergeParameters_eq earlier.parameters later.parameters
    rw [merged, getD_addLater addParameters_nil, addParameters, newParameters_eq_map]
    rfl
  keys := mem_keysOf_mergeParameters earlier.parameters later.parameters
  distinct := distinctKeys_mergeParameters earlier.parameters later.parameters
  unchanged := fun empty =>
    (mergeParameters_eq earlier.parameters later.parameters).trans (addLater_of_nil empty)

/-- One name at two locations is kept, and the first of two descriptions for one location. -/
example :
    let merged := PathItem.merge
      { parameters := some [{ name := "id", location := "path" }] }
      { parameters := some [{ name := "id", location := "query" },
          { name := "id", location := "query", description := some "second" }] }
    (merged.parameters.getD []).map (fun parameter => (parameter.key, parameter.description)) =
      [((↑"id", ↑"path"), none), ((↑"id", ↑"query"), none)] := by
  decide

/-! ### The same description once more -/

/-- Parameters whose keys are all there add nothing. -/
theorem mergeParameters_of_subset {earlier later : Option (List Parameter)}
    (known : keysOf later ⊆ keysOf earlier) : mergeParameters earlier later = earlier := by
  rw [mergeParameters_eq]
  by_cases empty : later.getD [] = []
  · exact addLater_of_nil empty
  · have nothing : newParameters ((earlier.getD []).map Parameter.key) (later.getD []) = [] :=
      newParameters_eq_nil known
    rw [addLater_of_ne_nil empty, addParameters, nothing, List.append_nil]
    cases earlier with
    | none => exact absurd (List.map_eq_nil_iff.mp (List.subset_nil.mp known)) empty
    | some parameters => rfl

theorem laterText_self (text : Option Text) : laterText text text = text := by
  cases text with
  | none => rfl
  | some text => exact ite_self _

theorem laterPart_self {α : Type} (part : Option α) : laterPart part part = part :=
  Option.or_self

/-- The path with more servers behind those that it has; no servers leave it as it is. -/
def Document.PathItem.addServers (item : PathItem) (servers : List Server) : PathItem :=
  if servers.isEmpty then item
  else { item with servers := some (item.servers.getD [] ++ servers) }

/-- Servers are added by merging a description that has nothing else. -/
theorem Document.PathItem.addServers_eq_merge (item : PathItem) (servers : List Server) :
    item.addServers servers = item.merge { servers := some servers } := by
  cases servers with
  | nil =>
    cases item
    rfl
  | cons server rest => rfl

theorem Document.PathItem.merge_self (item : PathItem) :
    item.merge item = item.addServers (item.servers.getD []) := by
  have servers : mergeServers item.servers item.servers =
      mergeServers item.servers (some (item.servers.getD [])) := by
    cases item.servers <;> rfl
  have parameters := mergeParameters_of_subset (List.Subset.refl (keysOf item.parameters))
  rw [PathItem.addServers_eq_merge, PathItem.merge_eq, PathItem.merge_eq]
  simp only [laterText_self, laterPart_self, servers, parameters, laterText_none, laterPart_none,
    mergeParameters_none]

/-- A description that was merged just before adds its servers and nothing else. -/
theorem Document.PathItem.merge_merge_self (existing given : PathItem) :
    (existing.merge given).merge given =
      (existing.merge given).addServers (given.servers.getD []) := by
  calc (existing.merge given).merge given
      = existing.merge (given.addServers (given.servers.getD [])) := by
        rw [PathItem.merge_merge, PathItem.merge_self]
    _ = (existing.merge given).addServers (given.servers.getD []) := by
        rw [PathItem.addServers_eq_merge, PathItem.addServers_eq_merge, PathItem.merge_merge]

/-! ### Tables of descriptions -/

namespace Document.Shared

/-- Each path keeps the number that it has, and a new path gets that of the table. -/
theorem get?_mergePaths (shared : Shared) (items : Table Nat) (path : Text) :
    (shared.mergePaths items).paths.get? path =
      (shared.paths.get? path).or (items.get? path) := by
  induction items generalizing shared with
  | nil => exact Option.or_none.symm
  | cons entry rest inductionHypothesis =>
    obtain ⟨first, number⟩ := entry
    refine (inductionHypothesis (shared.mergePath first number)).trans ?_
    rw [get?_mergePath, Option.or_assoc, Table.get?]
    split <;> rfl

theorem names_mergePaths (shared : Shared) (items : Table Nat) :
    (shared.mergePaths items).paths.names =
      shared.paths.names ++ Table.newNames shared.paths.names items.names := by
  induction items generalizing shared with
  | nil => exact (List.append_nil _).symm
  | cons entry rest inductionHypothesis =>
    refine (inductionHypothesis (shared.mergePath entry.1 entry.2)).trans ?_
    rw [names_mergePath]
    exact (Table.newNames_cons shared.paths.names entry.1 (Table.names rest)).symm

/-- Merging a table changes the description that the document has of each path of the table. -/
theorem descriptions_mergePaths (shared : Shared) {items : Table Nat}
    (distinct : items.names.Nodup) (path : Text) (index : Nat) :
    (shared.mergePaths items).descriptions path index = match items.get? path with
      | none => shared.descriptions path index
      | some number =>
        if shared.paths.get? path = some index
        then (shared.descriptions path index).merge (shared.descriptions path number)
        else shared.descriptions path index := by
  induction items generalizing shared with
  | nil => rfl
  | cons entry rest inductionHypothesis =>
    obtain ⟨first, number⟩ := entry
    obtain ⟨fresh, distinctRest⟩ := List.nodup_cons.mp distinct
    refine (inductionHypothesis (shared.mergePath first number) distinctRest).trans ?_
    simp only [get?_mergePath, descriptions_mergePath, Table.get?]
    by_cases here : first = path
    · subst here
      rw [(Table.get?_eq_none_iff first rest).mpr fresh, if_pos rfl]
      simp only [true_and]
    · simp only [here, false_and, if_false, Option.or_none]

section

variable {shared : Shared} {items : Table Nat} (distinct : items.names.Nodup) {path : Text}
  {number : Nat}

include distinct

theorem descriptions_of_undescribed (absent : items.get? path = none) :
    (shared.mergePaths items).descriptions path = shared.descriptions path := by
  funext index
  rw [descriptions_mergePaths shared distinct, absent]

/-- The description that the document has of a path takes in that of the table. -/
theorem descriptions_of_held (found : items.get? path = some number) {held : Nat}
    (there : shared.paths.get? path = some held) :
    (shared.mergePaths items).descriptions path held =
      (shared.descriptions path held).merge (shared.descriptions path number) := by
  rw [descriptions_mergePaths shared distinct, found]
  exact if_pos there

theorem descriptions_of_not_held (found : items.get? path = some number) {index : Nat}
    (elsewhere : shared.paths.get? path ≠ some index) :
    (shared.mergePaths items).descriptions path index = shared.descriptions path index := by
  rw [descriptions_mergePaths shared distinct, found]
  exact if_neg elsewhere

/-- A description of the table adds its servers a second time, as many as it has by then. -/
theorem descriptions_again (found : items.get? path = some number) {held : Nat}
    (there : (shared.mergePaths items).paths.get? path = some held) :
    ((shared.mergePaths items).mergePaths items).descriptions path held =
      ((shared.mergePaths items).descriptions path held).addServers
        (((shared.mergePaths items).descriptions path number).servers.getD []) := by
  rw [descriptions_of_held distinct found there]
  by_cases same : number = held
  · rw [same, PathItem.merge_self]
  · have before : shared.paths.get? path = some held := by
      rw [get?_mergePaths, found] at there
      cases earlier : shared.paths.get? path with
      | none =>
        rw [earlier, Option.none_or] at there
        exact absurd (Option.some.inj there) same
      | some other => rwa [earlier, Option.some_or] at there
    have unheld : shared.paths.get? path ≠ some number := by
      rw [before]
      exact fun equal => same (Option.some.inj equal).symm
    rw [descriptions_of_held distinct found before, descriptions_of_not_held distinct found unheld,
      PathItem.merge_merge_self]

end

end Document.Shared

/-! ### Merging a table again -/

/-- The path is there, and its parameters have all the keys of the description of this number. -/
def Document.Shared.HasKeys (shared : Shared) (path : Text) (number : Nat) : Prop :=
  ∃ held, shared.paths.get? path = some held ∧
    keysOf (shared.descriptions path number).parameters ⊆
      keysOf (shared.descriptions path held).parameters

section

variable {shared : Shared} {path : Text} {number : Nat}

/-- Merging takes no key from a description. -/
theorem Document.PathItem.keys_subset_merge (earlier later : PathItem) :
    keysOf earlier.parameters ⊆ keysOf (earlier.merge later).parameters :=
  fun key member => (mem_keysOf_mergeParameters _ _ key).mpr (Or.inl member)

/-- No key leaves a path when a description is merged. A description that is not the one of the
document stays as it is, and so has no keys that are new. -/
theorem Document.Shared.HasKeys.mergePath (has : shared.HasKeys path number) (other : Text)
    (given : Nat) : (shared.mergePath other given).HasKeys path number := by
  obtain ⟨held, found, inside⟩ := has
  refine ⟨held, by rw [get?_mergePath, found, Option.some_or], ?_⟩
  by_cases same : number = held
  · rw [same]
    exact List.Subset.refl _
  · have unheld : ¬(other = path ∧ shared.paths.get? other = some number) := by
      rintro ⟨rfl, there⟩
      exact same (Option.some.inj (there.symm.trans found))
    rw [descriptions_mergePath shared other path given number, if_neg unheld,
      descriptions_mergePath shared other path given held]
    split
    · next here =>
      rw [here.1]
      exact List.Subset.trans inside (PathItem.keys_subset_merge _ _)
    · exact inside

theorem Document.Shared.HasKeys.mergePaths (has : shared.HasKeys path number)
    (items : Table Nat) : (shared.mergePaths items).HasKeys path number := by
  induction items generalizing shared with
  | nil => exact has
  | cons entry rest inductionHypothesis =>
    exact inductionHypothesis (has.mergePath entry.1 entry.2)

/-- No key leaves a path in a run of tables of descriptions. -/
theorem Document.Shared.HasKeys.run (has : shared.HasKeys path number)
    (others : List (Table Nat)) : (others.foldl Shared.mergePaths shared).HasKeys path number := by
  induction others generalizing shared with
  | nil => exact has
  | cons items rest inductionHypothesis => exact inductionHypothesis (has.mergePaths items)

variable (shared path number) in
/-- A description that is merged brings its keys, also where it is the one of the document. -/
theorem Document.Shared.hasKeys_mergePath : (shared.mergePath path number).HasKeys path number := by
  cases found : shared.paths.get? path with
  | none =>
    refine ⟨number, ?_, List.Subset.refl _⟩
    rw [get?_mergePath, found, if_pos rfl, Option.none_or]
  | some held =>
    refine ⟨held, by rw [get?_mergePath, found, Option.some_or], ?_⟩
    by_cases same : number = held
    · rw [same]
      exact List.Subset.refl _
    · have unheld : ¬(path = path ∧ shared.paths.get? path = some number) := fun both =>
        same (Option.some.inj (both.2.symm.trans found))
      rw [descriptions_mergePath shared path path number number, if_neg unheld,
        descriptions_mergePath shared path path number held, if_pos ⟨rfl, found⟩]
      exact fun key member => (mem_keysOf_mergeParameters _ _ key).mpr (Or.inr member)

theorem Document.Shared.hasKeys_mergePaths {items : Table Nat}
    (given : (path, number) ∈ items) : (shared.mergePaths items).HasKeys path number := by
  induction items generalizing shared with
  | nil => nomatch given
  | cons entry rest inductionHypothesis =>
    rcases List.mem_cons.mp given with rfl | later
    · exact (shared.hasKeys_mergePath path number).mergePaths rest
    · exact inductionHypothesis later

end

theorem Document.Shared.names_mergePaths_again (shared : Shared) (items : Table Nat) :
    ((shared.mergePaths items).mergePaths items).paths.names =
      (shared.mergePaths items).paths.names := by
  have nothing : Table.newNames (shared.mergePaths items).paths.names items.names = [] := by
    rw [Table.newNames, List.filter_eq_nil_iff.mpr, List.eraseDups_nil]
    intro name member
    rw [decide_eq_true_eq, Decidable.not_not, names_mergePaths]
    exact Table.mem_append_newNames.mpr (Or.inr member)
  rw [names_mergePaths, nothing, List.append_nil]

/-- The second document is the first with the servers of each description of a table added to its
path once more, and otherwise the same. -/
structure Document.Shared.ServersRepeated (items : Table Nat) (start once twice : Shared) :
    Prop where
  described : ∀ path number, items.get? path = some number → ∃ item,
    once.document.paths.get? path = some item ∧
      twice.document.paths.get? path =
        some (item.addServers ((once.descriptions path number).servers.getD []))
  /-- A description that the document did not hold is still as it was given. -/
  given : ∀ path number, items.get? path = some number → start.paths.get? path ≠ some number →
    once.descriptions path number = start.descriptions path number
  /-- One that the document held from an earlier time has its own servers twice. -/
  held : ∀ path number, items.get? path = some number → start.paths.get? path = some number →
    once.descriptions path number = (start.descriptions path number).addServers
      ((start.descriptions path number).servers.getD [])
  undescribed : ∀ path, items.get? path = none →
    twice.document.paths.get? path = once.document.paths.get? path
  names : twice.document.paths.names = once.document.paths.names
  others : twice.document = { once.document with paths := twice.document.paths }

/-- Merging a table of descriptions twice in a row differs from merging it once in the servers only,
whether or not the document holds descriptions of the table from earlier times. And however many
tables are merged in between, merging it again leaves the parameters of every path as they are. -/
theorem mergePaths_again (shared : Shared) (items : Table Nat) (distinct : items.names.Nodup) :
    Shared.ServersRepeated items shared (shared.mergePaths items)
      ((shared.mergePaths items).mergePaths items) ∧
    ∀ (others : List (Table Nat)) (path : Text),
      let merged := others.foldl Shared.mergePaths (shared.mergePaths items)
      ((merged.mergePaths items).document.paths.get? path).map PathItem.parameters =
        (merged.document.paths.get? path).map PathItem.parameters := by
  have shown : ∀ shared : Shared, ∀ path, shared.document.paths.get? path =
      (shared.paths.get? path).map (shared.descriptions path) := Shared.get?_shown
  constructor
  · refine ⟨fun path number found => ?_,
      fun path number found unheld => Shared.descriptions_of_not_held distinct found unheld,
      fun path number found held => ?_, fun path absent => ?_, ?_, ?_⟩
    · obtain ⟨held, there⟩ : ∃ held, (shared.mergePaths items).paths.get? path = some held := by
        rw [Shared.get?_mergePaths, found]
        cases shared.paths.get? path with
        | none => exact ⟨number, rfl⟩
        | some held => exact ⟨held, rfl⟩
      refine ⟨(shared.mergePaths items).descriptions path held, by rw [shown, there]; rfl, ?_⟩
      rw [shown, Shared.get?_mergePaths, there, Option.some_or, Option.map_some,
        Shared.descriptions_again distinct found there]
    · rw [Shared.descriptions_of_held distinct found held, PathItem.merge_self]
    · rw [shown, shown, Shared.get?_mergePaths, absent, Option.or_none,
        Shared.descriptions_of_undescribed distinct absent]
    · exact (Shared.names_shown _).trans ((shared.names_mergePaths_again items).trans
        (Shared.names_shown _).symm)
    · rw [Shared.document, Shared.rest_mergePaths]
      rfl
  · intro others path merged
    rw [shown, shown, Shared.get?_mergePaths]
    cases found : items.get? path with
    | none => rw [Option.or_none, Shared.descriptions_of_undescribed distinct found]
    | some number =>
      obtain ⟨held, there, inside⟩ : merged.HasKeys path number :=
        (Shared.hasKeys_mergePaths (Table.mem_of_get? found)).run others
      rw [there, Option.some_or, Option.map_some, Option.map_some,
        Shared.descriptions_of_held distinct found there]
      exact congrArg some (mergeParameters_of_subset inside)

/-- A path that is there and one that is not, both described with servers and a repeated
parameter. -/
theorem mergePaths_again_two_paths :
    let document : Document := { paths := [("/a", { parameters := some [{ name := "at" }] })] }
    let given : PathItem :=
      { servers := some [{ url := "s" }], parameters := some [{ name := "id" }, { name := "id" }] }
    let items : Table Nat := [("/a", 1), ("/b", 2)]
    let shared := document.withTable [("/a", given), ("/b", given)]
    items.names.Nodup ∧
      Shared.ServersRepeated items shared (shared.mergePaths items)
        ((shared.mergePaths items).mergePaths items) ∧
      ∀ (others : List (Table Nat)) (path : Text),
        let merged := others.foldl Shared.mergePaths (shared.mergePaths items)
        ((merged.mergePaths items).document.paths.get? path).map PathItem.parameters =
          (merged.document.paths.get? path).map PathItem.parameters := by
  intro document given items shared
  have distinct : items.names.Nodup := by decide
  exact ⟨distinct, mergePaths_again shared items distinct⟩

/-- A new path holds the description of the table itself, so merging the table again doubles the
servers each time. A path that was there gets the same servers each time. -/
example :
    let document : Document := { paths := [("/a", {})] }
    let given : PathItem := { servers := some [{ url := "s" }] }
    let items : Table Nat := [("/a", 1), ("/b", 2)]
    let once := (document.withTable [("/a", given), ("/b", given)]).mergePaths items
    let again := ((once.mergePaths items).mergePaths items).mergePaths items
    again.document.paths.map (fun entry => (entry.2.servers.getD []).length) = [4, 8] := by
  decide

end GoApiDoc
