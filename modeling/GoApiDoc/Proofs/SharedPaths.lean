/-
This file says what merging does to what the descriptions of paths say. A description is an object
that a document and a table may both hold, and the object of a path in the document never changes
its number: what is merged into the path changes the object, and a path that is new gets one.

As long as no two paths of the document have one number, and none has a number of the table that is
merged, each description of the table is still as it was given when its turn comes. So merging a
table into a document for the first time goes by what the descriptions say and by nothing else.
-/

import GoApiDoc.Document.Merging
import GoApiDoc.Proofs.Table

namespace GoApiDoc

namespace Document

/-! ### One description -/

theorem Descriptions.set_same (descriptions : Descriptions) (path : Text) (number : Nat)
    (item : PathItem) : descriptions.set path number item path number = item :=
  if_pos ⟨rfl, rfl⟩

theorem Descriptions.set_of_ne (descriptions : Descriptions) {path other : Text}
    {number index : Nat} (item : PathItem) (differs : ¬(other = path ∧ index = number)) :
    descriptions.set path number item other index = descriptions other index :=
  if_neg differs

theorem Shared.get?_shown (shared : Shared) (path : Text) :
    shared.shown.get? path = (shared.paths.get? path).map (shared.descriptions path) := by
  unfold Shared.shown
  induction shared.paths with
  | nil => rfl
  | cons entry rest inductionHypothesis =>
    obtain ⟨first, number⟩ := entry
    rw [List.map_cons, Table.get?, Table.get?]
    split
    · next same => exact congrArg some (congrFun (congrArg shared.descriptions same) number)
    · exact inductionHypothesis

theorem Shared.names_shown (shared : Shared) : shared.shown.names = shared.paths.names :=
  List.map_map

section

variable {shared : Shared} {path : Text} {existing : Nat}

/-- A new path holds the given description itself. -/
theorem Shared.mergePath_of_none (fresh : shared.paths.get? path = none) (number : Nat) :
    shared.mergePath path number = { shared with paths := shared.paths.put path number } := by
  rw [Shared.mergePath, fresh]

/-- The description of a path that is there changes. -/
theorem Shared.mergePath_of_some (found : shared.paths.get? path = some existing)
    (number : Nat) :
    let merged := (shared.descriptions path existing).merge (shared.descriptions path number)
    shared.mergePath path number =
      { shared with descriptions := shared.descriptions.set path existing merged } := by
  rw [Shared.mergePath, found]

end

/-- A path that is there keeps the number of its description. -/
theorem Shared.get?_mergePath (shared : Shared) (path other : Text) (number : Nat) :
    (shared.mergePath path number).paths.get? other =
      (shared.paths.get? other).or (if path = other then some number else none) := by
  cases found : shared.paths.get? path with
  | none =>
    rw [Shared.mergePath_of_none found, Table.get?_put]
    split
    · next same => rw [← same, found, Option.none_or]
    · rw [Option.or_none]
  | some existing =>
    rw [Shared.mergePath_of_some found]
    split
    · next same => rw [← same, found, Option.some_or]
    · rw [Option.or_none]

theorem Shared.names_mergePath (shared : Shared) (path : Text) (number : Nat) :
    (shared.mergePath path number).paths.names = Table.withName shared.paths.names path := by
  cases found : shared.paths.get? path with
  | none =>
    rw [Shared.mergePath_of_none found]
    exact Table.names_put path number shared.paths
  | some existing =>
    have member : path ∈ shared.paths.names :=
      List.mem_map_of_mem (f := Prod.fst) (Table.mem_of_get? found)
    rw [Shared.mergePath_of_some found, Table.withName_of_mem member]

/-- Merging changes what the description of that path in the document says, and no other. -/
theorem Shared.descriptions_mergePath (shared : Shared) (path other : Text)
    (number index : Nat) :
    (shared.mergePath path number).descriptions other index =
      if path = other ∧ shared.paths.get? path = some index
      then (shared.descriptions path index).merge (shared.descriptions path number)
      else shared.descriptions other index := by
  cases found : shared.paths.get? path with
  | none =>
    rw [Shared.mergePath_of_none found, if_neg fun both => nomatch both.2]
  | some existing =>
    rw [Shared.mergePath_of_some found]
    by_cases here : other = path ∧ index = existing
    · obtain ⟨rfl, rfl⟩ := here
      rw [if_pos ⟨rfl, rfl⟩]
      exact Descriptions.set_same _ _ _ _
    · have elsewhere : ¬(path = other ∧ some existing = some index) := fun ⟨same, number⟩ =>
        here ⟨same.symm, (Option.some.inj number).symm⟩
      rw [if_neg elsewhere]
      exact Descriptions.set_of_ne _ _ here

/-! ### What the descriptions say -/

/-- The table of paths with one more description of a path: merged into the one that is there,
or last. -/
def mergePath (paths : Table PathItem) (path : Text) (item : PathItem) : Table PathItem :=
  match paths.get? path with
  | none => paths.put path item
  | some existing => paths.put path (existing.merge item)

theorem shown_put (descriptions : Descriptions) (paths : Table Nat) (path : Text)
    (number : Nat) :
    (paths.put path number).map (fun entry => (entry.1, descriptions entry.1 entry.2)) =
      Table.put path (descriptions path number)
        (paths.map fun entry => (entry.1, descriptions entry.1 entry.2)) := by
  induction paths with
  | nil => rfl
  | cons entry rest inductionHypothesis =>
    obtain ⟨first, old⟩ := entry
    rw [Table.put, List.map_cons, Table.put]
    split
    · next same =>
      subst same
      rfl
    · rw [List.map_cons, inductionHypothesis]

/-- If no two paths have one number, changing what one description says changes one path. -/
theorem shown_set {descriptions : Descriptions} {paths : Table Nat} {path : Text}
    {number : Nat} (item : PathItem) (apart : (paths.map Prod.snd).Nodup)
    (found : paths.get? path = some number) :
    paths.map (fun entry => (entry.1, descriptions.set path number item entry.1 entry.2)) =
      Table.put path item (paths.map fun entry => (entry.1, descriptions entry.1 entry.2)) := by
  induction paths with
  | nil => nomatch found
  | cons entry rest inductionHypothesis =>
    obtain ⟨first, old⟩ := entry
    obtain ⟨fresh, apartRest⟩ := List.nodup_cons.mp apart
    rw [Table.get?] at found
    rw [List.map_cons, List.map_cons, Table.put]
    split at found
    · next same =>
      subst same
      obtain rfl := Option.some.inj found
      rw [if_pos rfl, Descriptions.set_same]
      refine congrArg _ (List.map_congr_left fun entry member => ?_)
      have differs : ¬(entry.1 = first ∧ entry.2 = old) := fun same =>
        fresh (List.mem_map.mpr ⟨entry, member, same.2⟩)
      rw [Descriptions.set_of_ne _ _ differs]
    · next other =>
      have differs : ¬(first = path ∧ old = number) := fun same => other same.1
      rw [if_neg other, Descriptions.set_of_ne _ _ differs, inductionHypothesis apartRest found]

/-! ### Merging a table for the first time -/

/-- The paths have different numbers, all below a number. -/
structure NumbersBelow (number : Nat) (paths : Table Nat) : Prop where
  apart : (paths.map Prod.snd).Nodup
  below : ∀ entry ∈ paths, entry.2 < number

theorem Shared.shown_mergePath {shared : Shared} {path : Text} {number : Nat}
    (numbers : NumbersBelow number shared.paths) :
    (shared.mergePath path number).shown =
      Document.mergePath shared.shown path (shared.descriptions path number) := by
  rw [Document.mergePath, Shared.get?_shown]
  cases found : shared.paths.get? path with
  | none =>
    rw [Shared.mergePath_of_none found]
    exact shown_put shared.descriptions shared.paths path number
  | some existing =>
    rw [Shared.mergePath_of_some found]
    exact shown_set _ numbers.apart found

theorem put_of_get?_eq_none {paths : Table Nat} {path : Text} {number : Nat}
    (fresh : paths.get? path = none) : paths.put path number = paths ++ [(path, number)] := by
  induction paths with
  | nil => rfl
  | cons entry rest inductionHypothesis =>
    obtain ⟨first, old⟩ := entry
    rw [Table.get?] at fresh
    split at fresh
    · cases fresh
    · next other => rw [Table.put, if_neg other, inductionHypothesis fresh, List.cons_append]

theorem NumbersBelow.mergePath {shared : Shared} {number : Nat}
    (numbers : NumbersBelow number shared.paths) (path : Text) :
    NumbersBelow (number + 1) (shared.mergePath path number).paths := by
  cases found : shared.paths.get? path with
  | none =>
    rw [Shared.mergePath_of_none found]
    show NumbersBelow (number + 1) (shared.paths.put path number)
    rw [put_of_get?_eq_none found]
    constructor
    · rw [List.map_append, List.map_singleton]
      refine List.nodup_append.mpr ⟨numbers.apart, List.pairwise_singleton _ _, ?_⟩
      intro index member last inside same
      obtain ⟨entry, held, rfl⟩ := List.mem_map.mp member
      have := numbers.below entry held
      have := List.mem_singleton.mp inside
      omega
    · intro entry member
      rcases List.mem_append.mp member with inside | last
      · exact Nat.lt_succ_of_lt (numbers.below entry inside)
      · rw [List.mem_singleton.mp last]
        exact Nat.lt_succ_self number
  | some existing =>
    rw [Shared.mergePath_of_some found]
    exact ⟨numbers.apart, fun entry member => Nat.lt_succ_of_lt (numbers.below entry member)⟩

/-- A table of paths with descriptions merged into it. -/
def mergeEntries (paths : Table PathItem) (entries : List (Text × PathItem)) : Table PathItem :=
  entries.foldl (fun paths entry => mergePath paths entry.1 entry.2) paths

/-- The descriptions of a table, which the document does not hold yet, are merged as they are
given. -/
theorem Shared.shown_mergePaths {shared : Shared} {items : Table PathItem} {number : Nat}
    (numbers : NumbersBelow number shared.paths)
    (given : ∀ index entry, items[index]? = some entry →
      ∀ path, shared.descriptions path (number + index) = entry.2) :
    (shared.mergePaths (numbered number items)).shown = mergeEntries shared.shown items := by
  induction items generalizing shared number with
  | nil => rfl
  | cons entry rest inductionHypothesis =>
    have first : shared.descriptions entry.1 number = entry.2 := given 0 entry rfl entry.1
    have later := @inductionHypothesis (shared.mergePath entry.1 number) (number + 1)
      (numbers.mergePath entry.1) fun index next found path => by
        rw [Shared.descriptions_mergePath, if_neg, ← given (index + 1) next found path,
          Nat.add_right_comm, Nat.add_assoc]
        rintro ⟨-, held⟩
        have := numbers.below _ (Table.mem_of_get? held)
        omega
    calc (shared.mergePaths (numbered number (entry :: rest))).shown
        = ((shared.mergePath entry.1 number).mergePaths (numbered (number + 1) rest)).shown := rfl
      _ = mergeEntries (Document.mergePath shared.shown entry.1 entry.2) rest := by
          rw [later, Shared.shown_mergePath numbers, first]

theorem numbersBelow_numbered {α : Type} (number : Nat) (table : Table α) :
    NumbersBelow (number + table.length) (numbered number table) ∧
      ∀ entry ∈ numbered number table, number ≤ entry.2 := by
  induction table generalizing number with
  | nil => exact ⟨⟨List.nodup_nil, fun _ member => nomatch member⟩, fun _ member => nomatch member⟩
  | cons entry rest inductionHypothesis =>
    obtain ⟨numbers, above⟩ := inductionHypothesis (number + 1)
    have length : number + (entry :: rest).length = number + 1 + rest.length := by
      rw [List.length_cons]
      omega
    rw [length]
    refine ⟨⟨List.nodup_cons.mpr ⟨fun member => ?_, numbers.apart⟩, fun other member => ?_⟩,
      fun other member => ?_⟩
    · obtain ⟨other, inside, same⟩ := List.mem_map.mp member
      have := above other inside
      omega
    · rcases List.mem_cons.mp member with rfl | inside
      · show number < _
        omega
      · exact numbers.below other inside
    · rcases List.mem_cons.mp member with rfl | inside
      · exact Nat.le_refl number
      · exact Nat.le_of_succ_le (above other inside)

/-- What a table of numbered descriptions says. -/
theorem shown_numbered (table : Table PathItem) (descriptions : Descriptions) (number : Nat)
    (given : ∀ index entry, table[index]? = some entry →
      ∀ path, descriptions path (number + index) = entry.2) :
    (numbered number table).map (fun entry => (entry.1, descriptions entry.1 entry.2)) = table := by
  induction table generalizing number with
  | nil => rfl
  | cons entry rest inductionHypothesis =>
    have first : descriptions entry.1 number = entry.2 := given 0 entry rfl entry.1
    rw [numbered, List.map_cons, first, inductionHypothesis]
    intro index next found path
    rw [← given (index + 1) next found path, Nat.add_right_comm, Nat.add_assoc]

theorem shown_withTable (document : Document) (items : Table PathItem) :
    (document.withTable items).shown = document.paths := by
  refine shown_numbered _ _ _ fun index entry found path => ?_
  have inside : (document.paths ++ items)[index]? = some entry := by
    rw [List.getElem?_append_left (List.getElem?_eq_some_iff.mp found).1, found]
  simp only [withTable, Nat.zero_add, inside, Option.map_some, Option.getD_some]

/-- Merging a table into a document is merging what its descriptions say, one after the other. -/
theorem paths_mergePaths (document : Document) (items : Table PathItem) :
    (document.mergePaths items).paths = mergeEntries document.paths items := by
  have numbers := (numbersBelow_numbered 0 document.paths).1
  rw [Nat.zero_add] at numbers
  have merged : ((document.withTable items).mergePaths
      (numbered document.paths.length items)).shown =
      mergeEntries (document.withTable items).shown items :=
    Shared.shown_mergePaths numbers fun index entry found path => by
      have inside : (document.paths ++ items)[document.paths.length + index]? = some entry := by
        rw [List.getElem?_append_right (Nat.le_add_right _ _), Nat.add_sub_cancel_left, found]
      simp only [withTable, inside, Option.map_some, Option.getD_some]
  rwa [shown_withTable] at merged

theorem Shared.rest_mergePaths (shared : Shared) (items : Table Nat) :
    (shared.mergePaths items).rest = shared.rest := by
  induction items generalizing shared with
  | nil => rfl
  | cons entry rest inductionHypothesis =>
    refine (inductionHypothesis (shared.mergePath entry.1 entry.2)).trans ?_
    cases found : shared.paths.get? entry.1 with
    | none => rw [Shared.mergePath_of_none found]
    | some existing => rw [Shared.mergePath_of_some found]

/-- Merging a table changes the paths of a document only. -/
theorem mergePaths_eq (document : Document) (items : Table PathItem) :
    document.mergePaths items =
      { document with paths := mergeEntries document.paths items } := by
  have rest : ((document.withTable items).mergePaths
      (numbered document.paths.length items)).rest = document := Shared.rest_mergePaths _ _
  rw [← paths_mergePaths document items]
  show Shared.document _ = _
  rw [Shared.document, rest]
  rfl

end Document

end GoApiDoc
