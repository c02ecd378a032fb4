/-
This file says what a table holds after a run of additions. A table is read in two ways: by
looking a name up, and by listing its names in order. A run of additions is a fold over
entries, and both readings of the result follow from what one addition does to them: the
value of a name is a fold over the entries of that name alone, and the names are those that
were there, followed by the new ones in the order in which they first appeared.

A table whose names are distinct is determined by the two readings together.
-/

import GoApiDoc.Table
import Mathlib.Data.List.Forall2

namespace GoApiDoc.Table

variable {α κ : Type} [DecidableEq κ]

/-! ### One addition -/

/-- The names of a table after an addition under a name: a new name comes last. -/
def withName (names : List κ) (name : κ) : List κ :=
  if name ∈ names then names else names ++ [name]

theorem withName_of_mem {names : List κ} {name : κ} (member : name ∈ names) :
    withName names name = names := if_pos member

theorem withName_of_notMem {names : List κ} {name : κ} (fresh : name ∉ names) :
    withName names name = names ++ [name] := if_neg fresh

theorem get?_put (name other : κ) (value : α) (table : Table α κ) :
    (put name value table).get? other = if name = other then some value else table.get? other := by
  induction table with
  | nil => simp only [put, get?]
  | cons entry rest inductionHypothesis =>
    obtain ⟨first, old⟩ := entry
    by_cases same : first = name
    · subst same
      simp only [put, if_true, get?]
      split
      · rfl
      · rfl
    · simp only [put, if_neg same, get?, inductionHypothesis]
      by_cases found : first = other
      · subst found
        rw [if_pos rfl, if_neg (Ne.symm same)]
        exact (if_pos rfl).symm
      · rw [if_neg found, if_neg found]

theorem names_put (name : κ) (value : α) (table : Table α κ) :
    names (put name value table) = withName (names table) name := by
  induction table with
  | nil => rfl
  | cons entry rest inductionHypothesis =>
    obtain ⟨first, old⟩ := entry
    have listed : names ((first, old) :: rest) = first :: names rest := rfl
    by_cases same : first = name
    · subst same
      rw [put, if_pos rfl, listed, withName_of_mem List.mem_cons_self]
      rfl
    · have put_listed : names (put name value ((first, old) :: rest)) =
          first :: names (put name value rest) := by
        rw [put, if_neg same]
        rfl
      rw [put_listed, inductionHypothesis, listed]
      by_cases member : name ∈ names rest
      · rw [withName_of_mem member, withName_of_mem (List.mem_cons_of_mem _ member)]
      · rw [withName_of_notMem member, withName_of_notMem (List.not_mem_cons_of_ne_of_not_mem
          (Ne.symm same) member), List.cons_append]

theorem get?_eq_none_iff (name : κ) (table : Table α κ) :
    table.get? name = none ↔ name ∉ table.names := by
  induction table with
  | nil => simp [get?, names]
  | cons entry rest inductionHypothesis =>
    obtain ⟨first, value⟩ := entry
    simp only [names, List.map_cons, List.mem_cons, not_or] at inductionHypothesis ⊢
    by_cases same : first = name
    · simp [get?, same]
    · simp [get?, if_neg same, inductionHypothesis, Ne.symm same]

theorem mem_of_get? {name : κ} {value : α} {table : Table α κ}
    (found : table.get? name = some value) : (name, value) ∈ table := by
  induction table with
  | nil => nomatch found
  | cons entry rest inductionHypothesis =>
    obtain ⟨other, old⟩ := entry
    rw [get?] at found
    split at found
    · next same =>
      rw [same, ← Option.some.inj found]
      exact List.mem_cons_self
    · exact List.mem_cons_of_mem _ (inductionHypothesis found)

/-- Where names are distinct, each entry is found under its name. -/
theorem get?_eq_some_iff {name : κ} {value : α} {table : Table α κ}
    (distinct : table.names.Nodup) : table.get? name = some value ↔ (name, value) ∈ table := by
  refine ⟨mem_of_get?, fun member => ?_⟩
  induction table with
  | nil => nomatch member
  | cons entry rest inductionHypothesis =>
    obtain ⟨first, old⟩ := entry
    obtain ⟨fresh, distinctRest⟩ := List.nodup_cons.mp distinct
    rw [get?]
    rcases List.mem_cons.mp member with same | member
    · obtain ⟨rfl, rfl⟩ := Prod.mk.inj same
      exact if_pos rfl
    · have later : name ∈ rest.map Prod.fst := List.mem_map_of_mem member
      have other : first ≠ name := fun same => fresh (same ▸ later)
      rw [if_neg other]
      exact inductionHypothesis distinctRest member

/-- The order of entries with distinct names does not show in what is found under a name. -/
theorem get?_perm {first second : Table α κ} (distinct : first.names.Nodup)
    (order : first.Perm second) (name : κ) : first.get? name = second.get? name := by
  have distinctSecond : second.names.Nodup := (order.map Prod.fst).nodup_iff.mp distinct
  ext value
  rw [get?_eq_some_iff distinct, get?_eq_some_iff distinctSecond, order.mem_iff]

theorem put_put (name : κ) (value later : α) (table : Table α κ) :
    put name later (put name value table) = put name later table := by
  induction table with
  | nil => exact if_pos rfl
  | cons entry rest inductionHypothesis =>
    obtain ⟨first, old⟩ := entry
    by_cases same : first = name
    · simp only [put, if_pos same]
    · simp only [put, if_neg same, inductionHypothesis]

/-! ### Runs of additions -/

/-- The values that entries give for a name, in order. -/
def valuesOf (name : κ) (entries : List (κ × α)) : List α :=
  (entries.filter fun entry => entry.1 = name).map Prod.snd

/-- The names that are not known yet, each once, in the order of their first appearance. -/
def newNames (known names : List κ) : List κ :=
  (names.filter fun name => name ∉ known).eraseDups

theorem valuesOf_cons (name : κ) (entry : κ × α) (entries : List (κ × α)) :
    valuesOf name (entry :: entries) =
      if entry.1 = name then entry.2 :: valuesOf name entries else valuesOf name entries := by
  simp only [valuesOf, List.filter_cons, decide_eq_true_eq]
  split
  · rfl
  · rfl

theorem newNames_nil (known : List κ) : newNames known [] = [] := rfl

theorem newNames_cons (known : List κ) (name : κ) (names : List κ) :
    known ++ newNames known (name :: names) =
      withName known name ++ newNames (withName known name) names := by
  by_cases member : name ∈ known
  · rw [withName_of_mem member]
    simp only [newNames, List.filter_cons, member, not_true_eq_false, decide_false,
      Bool.false_eq_true, if_false]
  · have kept : names.filter (fun other => other ∉ known ++ [name]) =
        (names.filter fun other => other ∉ known).filter fun other => !other == name := by
      rw [List.filter_filter]
      refine List.filter_congr fun other _ => ?_
      simp only [List.mem_append, List.mem_singleton, not_or, Bool.decide_and, decide_not,
        Bool.and_comm]
      rfl
    rw [withName_of_notMem member, newNames, newNames, kept]
    simp only [List.filter_cons, member, not_false_eq_true, decide_true, if_true,
      List.eraseDups_cons, List.append_assoc, List.singleton_append]

theorem mem_append_newNames {known names : List κ} {name : κ} :
    name ∈ known ++ newNames known names ↔ name ∈ known ∨ name ∈ names := by
  rw [List.mem_append, newNames, List.mem_eraseDups, List.mem_filter, decide_eq_true_eq]
  by_cases member : name ∈ known
  · exact ⟨fun _ => Or.inl member, fun _ => Or.inl member⟩
  · exact or_congr_right ⟨fun both => both.1, fun listed => ⟨listed, member⟩⟩

/-- Where each addition gives one name its next value, a run gives it the fold of its
values. -/
theorem get?_foldl (step : Table α κ → κ × α → Table α κ) (next : Option α → α → Option α)
    (name : κ)
    (each : ∀ table entry, (step table entry).get? name =
      if entry.1 = name then next (table.get? name) entry.2 else table.get? name)
    (entries : List (κ × α)) (table : Table α κ) :
    (entries.foldl step table).get? name =
      (valuesOf name entries).foldl next (table.get? name) := by
  induction entries generalizing table with
  | nil => rfl
  | cons entry rest inductionHypothesis =>
    rw [List.foldl_cons, inductionHypothesis, each, valuesOf_cons]
    split
    · rfl
    · rfl

/-- Where each addition lists its name, a run lists the known names and then the new ones. -/
theorem names_foldl (step : Table α κ → κ × α → Table α κ)
    (each : ∀ table entry, names (step table entry) = withName (names table) entry.1)
    (entries : List (κ × α)) (table : Table α κ) :
    names (entries.foldl step table) =
      names table ++ newNames (names table) (entries.map Prod.fst) := by
  induction entries generalizing table with
  | nil => rw [List.map_nil, newNames_nil, List.append_nil, List.foldl_nil]
  | cons entry rest inductionHypothesis =>
    rw [List.foldl_cons, inductionHypothesis, each, List.map_cons, ← newNames_cons]

theorem foldl_last (values : List α) (start : Option α) :
    values.foldl (fun _ value => some value) start = values.getLast?.or start := by
  induction values generalizing start with
  | nil => rfl
  | cons value rest inductionHypothesis =>
    rw [List.foldl_cons, inductionHypothesis, List.getLast?_cons]
    cases rest.getLast? <;> rfl

/-- A table of entries lists their names once each, in the order of their first appearance. -/
theorem names_ofList (entries : List (κ × α)) :
    (ofList entries).names = (entries.map Prod.fst).eraseDups := by
  have known : ∀ names : List κ, newNames [] names = names.eraseDups := by
    intro names
    rw [newNames, List.filter_eq_self.mpr (by simp)]
  unfold ofList
  rw [names_foldl _ (fun table entry => names_put entry.1 entry.2 table)]
  exact (List.nil_append _).trans (known _)

/-- A table of entries has for a name the last value that an entry gives it. -/
theorem get?_ofList (entries : List (κ × α)) (name : κ) :
    (ofList entries).get? name = (valuesOf name entries).getLast? := by
  unfold ofList
  rw [get?_foldl _ (fun _ value => some value) name
    (fun table entry => get?_put entry.1 name entry.2 table), foldl_last]
  exact Option.or_none

/-! ### Distinct names -/

theorem put_of_notMem {name : κ} {value : α} {table : Table α κ} (fresh : name ∉ table.names) :
    put name value table = table ++ [(name, value)] := by
  induction table with
  | nil => rfl
  | cons entry rest inductionHypothesis =>
    obtain ⟨first, old⟩ := entry
    obtain ⟨other, freshRest⟩ := List.ne_and_not_mem_of_not_mem_cons fresh
    rw [put, if_neg (Ne.symm other), inductionHypothesis freshRest, List.cons_append]

theorem mem_put {name : κ} {value : α} {table : Table α κ} {entry : κ × α}
    (member : entry ∈ put name value table) : entry = (name, value) ∨ entry ∈ table := by
  induction table with
  | nil => exact Or.inl (List.mem_singleton.mp member)
  | cons first rest inductionHypothesis =>
    obtain ⟨other, old⟩ := first
    rw [put] at member
    split at member
    · next same =>
      obtain rfl | member := List.mem_cons.mp member
      · exact Or.inl (by rw [same])
      · exact Or.inr (List.mem_cons_of_mem _ member)
    · obtain rfl | member := List.mem_cons.mp member
      · exact Or.inr List.mem_cons_self
      · exact (inductionHypothesis member).imp_right (List.mem_cons_of_mem _)

theorem nodup_withName {names : List κ} (name : κ) (distinct : names.Nodup) :
    (withName names name).Nodup := by
  by_cases member : name ∈ names
  · rwa [withName_of_mem member]
  · rw [withName_of_notMem member]
    exact List.nodup_append.mpr ⟨distinct, List.pairwise_singleton _ _, by
      intro first firstMember second secondMember same
      rw [List.mem_singleton] at secondMember
      exact member (by rwa [← secondMember, ← same])⟩

/-- Additions keep names distinct. -/
theorem nodup_append_newNames (known names : List κ) (distinct : known.Nodup) :
    (known ++ newNames known names).Nodup := by
  induction names generalizing known with
  | nil => rwa [newNames_nil, List.append_nil]
  | cons name rest inductionHypothesis =>
    rw [newNames_cons]
    exact inductionHypothesis _ (nodup_withName name distinct)

/-- A table with distinct names is determined by its names and their values. -/
theorem ext_of_nodup {first second : Table α κ} (distinct : first.names.Nodup)
    (sameNames : first.names = second.names)
    (sameValues : ∀ name, first.get? name = second.get? name) : first = second := by
  induction first generalizing second with
  | nil =>
    cases second with
    | nil => rfl
    | cons entry rest => simp [names] at sameNames
  | cons entry rest inductionHypothesis =>
    cases second with
    | nil => simp [names] at sameNames
    | cons other others =>
      obtain ⟨name, value⟩ := entry
      obtain ⟨otherName, otherValue⟩ := other
      simp only [names, List.map_cons, List.cons.injEq] at sameNames
      obtain ⟨rfl, restNames⟩ := sameNames
      simp only [names, List.map_cons, List.nodup_cons] at distinct
      have head := sameValues name
      simp only [get?, if_true, Option.some.injEq] at head
      subst head
      refine congrArg ((name, value) :: ·) (inductionHypothesis distinct.2 restNames ?_)
      intro wanted
      by_cases same : name = wanted
      · subst same
        rw [(get?_eq_none_iff name rest).mpr distinct.1,
          (get?_eq_none_iff name others).mpr (by rw [names, ← restNames]; exact distinct.1)]
      · have tail := sameValues wanted
        simpa only [get?, if_neg same] using tail

/-! ### Tables of lists -/

/-- What a fold adds to a table was there or is among the entries. -/
theorem mem_foldl_put {entries : List (κ × α)} {table : Table α κ} {entry : κ × α}
    (member : entry ∈ entries.foldl (fun table entry => put entry.1 entry.2 table) table) :
    entry ∈ table ∨ entry ∈ entries := by
  induction entries generalizing table with
  | nil => exact Or.inl member
  | cons first rest inductionHypothesis =>
    obtain member | member := inductionHypothesis member
    · obtain rfl | member := mem_put member
      · exact Or.inr List.mem_cons_self
      · exact Or.inl member
    · exact Or.inr (List.mem_cons_of_mem _ member)

theorem mem_of_mem_ofList {entries : List (κ × α)} {entry : κ × α}
    (member : entry ∈ ofList entries) : entry ∈ entries :=
  (mem_foldl_put member).resolve_left List.not_mem_nil

theorem nodup_ofList (entries : List (κ × α)) : (ofList entries).names.Nodup := by
  unfold ofList
  rw [names_foldl _ (fun table entry => names_put entry.1 entry.2 table)]
  exact nodup_append_newNames _ _ .nil

theorem foldl_put_of_nodup {table entries : Table α κ} (distinct : (table ++ entries).names.Nodup) :
    entries.foldl (fun table entry => put entry.1 entry.2 table) table = table ++ entries := by
  induction entries generalizing table with
  | nil => exact (List.append_nil table).symm
  | cons entry rest inductionHypothesis =>
    have fresh : entry.1 ∉ table.names := by
      rw [names, List.map_append, List.nodup_append] at distinct
      intro member
      exact distinct.2.2 _ member _ List.mem_cons_self rfl
    rw [List.foldl_cons, put_of_notMem fresh, inductionHypothesis, List.append_assoc,
      List.singleton_append]
    rwa [List.append_assoc, List.singleton_append]

/-! ### Renamed entries -/

section

variable {ι β : Type} [DecidableEq ι]

/-- One entry is the other under a new name, with a related value. -/
def Renames (rename : κ → ι) (related : α → β → Prop) (entry : κ × α) (other : ι × β) : Prop :=
  rename entry.1 = other.1 ∧ related entry.2 other.2

variable {rename : κ → ι} (injective : Function.Injective rename) {related : α → β → Prop}

include injective

theorem forall₂_put {entry : κ × α} {other : ι × β} (one : Renames rename related entry other)
    {table : Table α κ} {renamed : Table β ι}
    (each : List.Forall₂ (Renames rename related) table renamed) :
    List.Forall₂ (Renames rename related) (put entry.1 entry.2 table)
      (put other.1 other.2 renamed) := by
  induction each with
  | nil => exact .cons one .nil
  | @cons found foundOther rest others same tail inductionHypothesis =>
    have names : found.1 = entry.1 ↔ foundOther.1 = other.1 := by
      rw [← same.1, ← one.1, injective.eq_iff]
    simp only [put, names]
    split
    · exact .cons ⟨same.1, one.2⟩ tail
    · exact .cons same inductionHypothesis

/-- Renaming entries so that names stay apart and making a table of them can be done in either
order. -/
theorem forall₂_ofList {entries : List (κ × α)} {others : List (ι × β)}
    (each : List.Forall₂ (Renames rename related) entries others) :
    List.Forall₂ (Renames rename related) (ofList entries) (ofList others) := by
  have fold : ∀ {table : Table α κ} {renamed : Table β ι},
      List.Forall₂ (Renames rename related) table renamed →
      List.Forall₂ (Renames rename related)
        (entries.foldl (fun table entry => put entry.1 entry.2 table) table)
        (others.foldl (fun table entry => put entry.1 entry.2 table) renamed) := by
    induction each with
    | nil => exact id
    | cons one _ inductionHypothesis =>
      exact fun tables => inductionHypothesis (forall₂_put injective one tables)
  exact fold .nil

end

/-! ### Distinct entries -/

/-- Distinct names are a table as they stand. -/
theorem ofList_of_nodup {table : Table α κ} (distinct : table.names.Nodup) : ofList table = table :=
  foldl_put_of_nodup distinct

end GoApiDoc.Table
