/-
This file says what lies where in a tree of files. Names lead from an entry down to another
entry or to nothing, and what can be seen there, the content of a file or that there is a
directory, is the one reading of a tree on which its theory rests.

Three things are said in this reading. It does not show in which order directories list their
entries, and neither do paths, with their steps back. Where a path has a place for a file, names
alone lead to that place: to a file, or to nothing in a directory that is there. And a file that
is written at its place is seen there, while everything else is seen as before.
-/

import GoApiDoc.Files
import GoApiDoc.Proofs.Table
import Mathlib.Data.List.Forall2

namespace GoApiDoc

/-! ### What names lead to -/

/-- The entry that names lead to. -/
def Entry.at? : Entry → List String → Option Entry
  | tree, [] => some tree
  | tree, name :: rest => (Table.get? name tree.entries).bind fun entry => entry.at? rest

/-- The content of a file; a directory has none. -/
def Entry.content? : Entry → Option (List UInt8)
  | .file content => some content
  | .directory _ => none

/-- What is seen where names lead: nothing, a directory, or a file with its content. -/
def Entry.seen? (tree : Entry) (names : List String) : Option (Option (List UInt8)) :=
  (tree.at? names).map Entry.content?

theorem Entry.at?_append (tree : Entry) (first second : List String) :
    tree.at? (first ++ second) = (tree.at? first).bind fun entry => entry.at? second := by
  induction first generalizing tree with
  | nil => rfl
  | cons name rest inductionHypothesis =>
    rw [List.cons_append, at?, at?, Option.bind_assoc]
    exact congrArg _ (funext fun entry => inductionHypothesis entry)

theorem Entry.seen?_cons (tree : Entry) (name : String) (rest : List String) :
    tree.seen? (name :: rest) =
      (Table.get? name tree.entries).bind fun entry => entry.seen? rest := by
  rw [seen?, at?, Option.map_bind]
  rfl

/-! ### Distinct names -/

/-- In every directory of the tree the names are distinct. -/
inductive Entry.WellNamed : Entry → Prop
  | file (content : List UInt8) : WellNamed (.file content)
  | directory {entries : List (String × Entry)} (distinct : (Table.names entries).Nodup)
      (each : ∀ entry ∈ entries, WellNamed entry.2) : WellNamed (.directory entries)

theorem Entry.WellNamed.distinct {entries : List (String × Entry)}
    (named : (Entry.directory entries).WellNamed) : (Table.names entries).Nodup := by
  cases named with
  | directory distinct _ => exact distinct

theorem Entry.WellNamed.get? {tree : Entry} {name : String} {entry : Entry}
    (named : tree.WellNamed) (found : Table.get? name tree.entries = some entry) :
    entry.WellNamed := by
  cases named with
  | file content => nomatch found
  | directory _ each => exact each _ (Table.mem_of_get? found)

theorem Entry.WellNamed.at? {tree entry : Entry} {names : List String} (named : tree.WellNamed)
    (found : tree.at? names = some entry) : entry.WellNamed := by
  induction names generalizing tree with
  | nil => exact Option.some.inj found ▸ named
  | cons name rest inductionHypothesis =>
    obtain ⟨inner, foundInner, found⟩ := Option.bind_eq_some_iff.mp found
    exact inductionHypothesis (named.get? foundInner) found

/-! ### The order of listing -/

/-- The same tree, with the entries of directories in another order. -/
inductive Entry.Relisted : Entry → Entry → Prop
  | same (tree : Entry) : Relisted tree tree
  | listing {entries listed : List (String × Entry)} (order : entries.Perm listed) :
      Relisted (.directory entries) (.directory listed)
  | within {entry listed : Entry} (front : List (String × Entry)) (name : String)
      (rest : List (String × Entry)) (inner : Relisted entry listed) :
      Relisted (.directory (front ++ (name, entry) :: rest))
        (.directory (front ++ (name, listed) :: rest))
  | trans {first second third : Entry} (former : Relisted first second)
      (latter : Relisted second third) : Relisted first third

theorem Entry.Relisted.wellNamed {first second : Entry} (relisted : first.Relisted second)
    (named : first.WellNamed) : second.WellNamed := by
  induction relisted with
  | same => exact named
  | listing order =>
    cases named with
    | directory distinct each =>
      refine .directory ((order.map Prod.fst).nodup_iff.mp distinct) fun entry member => ?_
      exact each entry (order.mem_iff.mpr member)
  | within front name rest inner inductionHypothesis =>
    cases named with
    | directory distinct each =>
      refine .directory (by simpa [Table.names] using distinct) fun entry member => ?_
      rcases List.mem_append.mp member with member | member
      · exact each entry (List.mem_append_left _ member)
      · rcases List.mem_cons.mp member with rfl | member
        · exact inductionHypothesis (each _ (List.mem_append_right _ List.mem_cons_self))
        · exact each entry (List.mem_append_right _ (List.mem_cons_of_mem _ member))
  | trans _ _ former latter => exact latter (former named)

theorem Entry.Relisted.content? {first second : Entry} (relisted : first.Relisted second) :
    first.content? = second.content? := by
  induction relisted with
  | same => rfl
  | listing => rfl
  | within => rfl
  | trans _ _ former latter => exact former.trans latter

theorem Entry.Relisted.eq_file {content : List UInt8} {second : Entry}
    (relisted : (Entry.file content).Relisted second) : second = .file content := by
  cases second with
  | file other => rw [Option.some.inj relisted.content?]
  | directory entries => nomatch relisted.content?

theorem Entry.Relisted.eq_directory {entries : List (String × Entry)} {second : Entry}
    (relisted : (Entry.directory entries).Relisted second) :
    ∃ listed, second = .directory listed := by
  cases second with
  | file other => nomatch relisted.content?
  | directory listed => exact ⟨listed, rfl⟩

/-- One entry in the place of another under the same name. -/
theorem get?_replaced {related : Entry → Entry → Prop} (reflexive : ∀ entry, related entry entry)
    {entry other : Entry} (inner : related entry other) (front : List (String × Entry))
    (name : String) (rest : List (String × Entry)) (wanted : String) :
    Option.Rel related (Table.get? wanted (front ++ (name, entry) :: rest))
      (Table.get? wanted (front ++ (name, other) :: rest)) := by
  induction front with
  | nil =>
    simp only [List.nil_append, Table.get?]
    split
    · exact .some inner
    · cases Table.get? wanted rest with
      | none => exact .none
      | some found => exact .some (reflexive found)
  | cons first front inductionHypothesis =>
    simp only [List.cons_append, Table.get?]
    split
    · exact .some (reflexive _)
    · exact inductionHypothesis

/-- Relisted trees have relisted entries under the same names. -/
theorem Entry.Relisted.get? {first second : Entry} (relisted : first.Relisted second)
    (named : first.WellNamed) (name : String) :
    Option.Rel Entry.Relisted (Table.get? name first.entries)
      (Table.get? name second.entries) := by
  induction relisted with
  | same tree =>
    cases Table.get? name tree.entries with
    | none => exact .none
    | some entry => exact .some (.same entry)
  | @listing entries listed order =>
    simp only [Entry.entries, ← Table.get?_perm named.distinct order name]
    cases Table.get? name entries with
    | none => exact .none
    | some entry => exact .some (.same entry)
  | within front other rest inner _ => exact get?_replaced .same inner front other rest name
  | @trans first second third former latter formerRelated latterRelated =>
    have before := formerRelated named
    have behind := latterRelated (former.wellNamed named)
    generalize Table.get? name first.entries = one, Table.get? name second.entries = two,
      Table.get? name third.entries = three at before behind
    cases before with
    | none => cases behind with
      | none => exact .none
    | some inner => cases behind with
      | some outer => exact .some (inner.trans outer)

/-- The order of listing does not show in what is seen. -/
theorem Entry.Relisted.seen? {first second : Entry} (relisted : first.Relisted second)
    (named : first.WellNamed) (names : List String) : first.seen? names = second.seen? names := by
  induction names generalizing first second with
  | nil => exact congrArg some relisted.content?
  | cons name rest inductionHypothesis =>
    have related := relisted.get? named name
    rw [seen?_cons, seen?_cons]
    generalize found : Table.get? name first.entries = entry,
      Table.get? name second.entries = other at related ⊢
    cases related with
    | none => rfl
    | some inner => exact inductionHypothesis inner (named.get? found)

/-! ### The way along a path -/

/-- Where the way along a path stands: names lead from the top to the entry, past the
directories that are its ancestors. -/
inductive Entry.Stands (top : Entry) : List Entry → List String → Entry → Prop
  | top : Stands top [] [] top
  | step {ancestors : List Entry} {names : List String} {directory entry : Entry} {name : String}
      (before : Stands top ancestors names directory)
      (found : Table.get? name directory.entries = some entry) :
      Stands top (directory :: ancestors) (names ++ [name]) entry

theorem Entry.Stands.at? {top entry : Entry} {ancestors : List Entry} {names : List String}
    (stands : top.Stands ancestors names entry) : top.at? names = some entry := by
  induction stands with
  | top => rfl
  | step _ found inductionHypothesis =>
    rw [at?_append, inductionHypothesis, Option.bind_some, Entry.at?, found]
    rfl

/-- A step back leads to the nearest ancestor. -/
theorem Entry.Stands.back {top parent entry : Entry} {others : List Entry} {names : List String}
    (stands : top.Stands (parent :: others) names entry) :
    top.Stands others names.dropLast parent := by
  cases stands with
  | step before _ => rwa [List.dropLast_concat]

/-- What a path leads to, names lead to as well. -/
theorem Entry.at?_of_descend {top : Entry} {ancestors : List Entry} {names : List String}
    {current entry : Entry} {parts : List String} (stands : top.Stands ancestors names current)
    (found : current.descend ancestors parts = .ok entry) :
    ∃ names, top.at? names = some entry := by
  induction parts generalizing ancestors names current with
  | nil => exact ⟨names, Except.ok.inj found ▸ stands.at?⟩
  | cons part rest inductionHypothesis =>
    cases current with
    | file content => nomatch found
    | directory entries =>
      simp only [descend] at found
      split at found
      · cases ancestors with
        | nil => exact inductionHypothesis stands found
        | cons parent others => exact inductionHypothesis stands.back found
      · split at found
        · nomatch found
        · next entry foundEntry =>
          have foundHere : Table.get? part (Entry.directory entries).entries = some entry :=
            foundEntry
          exact inductionHypothesis (stands.step foundHere) found

/-- In well named trees paths lead to well named entries. -/
theorem FileSystem.wellNamed_of_find {system : FileSystem} {path : Path} {entry : Entry}
    (named : system.top.WellNamed) (found : system.find path = .ok entry) : entry.WellNamed := by
  obtain ⟨names, foundEntry⟩ := Entry.at?_of_descend .top found
  exact named.at? foundEntry

/-- Two results of looking for an entry: the same fault, or related entries. -/
inductive SameFound : Except PathFault Entry → Except PathFault Entry → Prop
  | fault (fault : PathFault) : SameFound (.error fault) (.error fault)
  | found {first second : Entry} (relisted : first.Relisted second) :
      SameFound (.ok first) (.ok second)

/-- The order of listing does not show in where a path leads. -/
theorem Entry.Relisted.descend {first second : Entry} {ancestors others : List Entry}
    (relisted : first.Relisted second) (named : first.WellNamed)
    (around : List.Forall₂ (fun one other => one.Relisted other ∧ one.WellNamed) ancestors others)
    (parts : List String) :
    SameFound (first.descend ancestors parts) (second.descend others parts) := by
  induction parts generalizing first second ancestors others with
  | nil => exact .found relisted
  | cons part rest inductionHypothesis =>
    cases first with
    | file content =>
      obtain rfl := relisted.eq_file
      exact .fault .absent
    | directory entries =>
      obtain ⟨listed, rfl⟩ := relisted.eq_directory
      have related := relisted.get? named part
      simp only [Entry.descend]
      split
      · cases around with
        | nil => exact inductionHypothesis relisted named .nil
        | cons parent others => exact inductionHypothesis parent.1 parent.2 others
      · simp only [Entry.entries] at related
        generalize found : Table.get? part entries = entry,
          Table.get? part listed = other at related ⊢
        cases related with
        | none => exact .fault _
        | some inner =>
          exact inductionHypothesis inner (named.get? found) (.cons ⟨relisted, named⟩ around)

/-- The same files, with the entries of directories in another order. -/
structure FileSystem.Relisted (system other : FileSystem) : Prop where
  top : system.top.Relisted other.top
  workingDirectory : system.workingDirectory = other.workingDirectory

theorem FileSystem.Relisted.find {system other : FileSystem} (relisted : system.Relisted other)
    (named : system.top.WellNamed) (path : Path) :
    SameFound (system.find path) (other.find path) := by
  have routes : other.route path = system.route path := by
    rw [route, route, relisted.workingDirectory]
  rw [FileSystem.find, FileSystem.find, routes]
  exact relisted.top.descend named .nil _

/-! ### Places for files -/

/-- There is a place for a file where names lead: in a directory that is there, under the name
of a file or of nothing. -/
def Entry.HasPlace (tree : Entry) (place : List String) : Prop :=
  ∃ names name entries, place = names ++ [name] ∧ tree.at? names = some (.directory entries) ∧
    ∀ inner, Table.get? name entries ≠ some (.directory inner)

theorem Entry.hasPlace_of_place {entries : List (String × Entry)} {ancestors : List Entry}
    {names place : List String} {current : Entry} {parts : List String}
    (stands : (Entry.directory entries).Stands ancestors names current)
    (found : current.place ancestors names parts = .ok place) :
    (Entry.directory entries).HasPlace place := by
  induction parts generalizing ancestors names current with
  | nil =>
    cases current with
    | directory inner => nomatch found
    | file content =>
      obtain rfl := Except.ok.inj found
      cases stands with
      | @step _ before parent _ name stands foundFile =>
        cases parent with
        | file other => nomatch foundFile
        | directory inner =>
          refine ⟨before, name, inner, rfl, stands.at?, fun deeper isDirectory => ?_⟩
          rw [show Table.get? name inner = some (.file content) from foundFile] at isDirectory
          nomatch isDirectory
  | cons part rest inductionHypothesis =>
    cases current with
    | file content => nomatch found
    | directory inner =>
      simp only [Entry.place] at found
      split at found
      · cases ancestors with
        | nil => exact inductionHypothesis stands found
        | cons parent others => exact inductionHypothesis stands.back found
      · split at found
        · next entry foundEntry =>
          have foundHere : Table.get? part (Entry.directory inner).entries = some entry :=
            foundEntry
          exact inductionHypothesis (stands.step foundHere) found
        · next absent =>
          split at found
          · nomatch found
          · split at found
            · obtain rfl := Except.ok.inj found
              exact ⟨names, part, inner, rfl, stands.at?, fun _ found => by simp [absent] at found⟩
            · nomatch found

theorem FileSystem.hasPlace_of_place {system : FileSystem} {path : Path} {place : List String}
    (found : system.place path = .ok place) : system.top.HasPlace place :=
  Entry.hasPlace_of_place .top found

/-! ### Writing -/

theorem Entry.write_cons {content : List UInt8} {name : String} {rest : List String}
    {entries : List (String × Entry)} {entry : Entry} (more : rest ≠ [])
    (found : Table.get? name entries = some entry) :
    (Entry.directory entries).write content (name :: rest) =
      .directory (Table.put name (entry.write content rest) entries) := by
  cases rest with
  | nil => exact absurd rfl more
  | cons next others => simp only [write, found]

theorem Entry.at?_cons_eq_some {tree entry : Entry} {name : String} {rest : List String}
    (found : tree.at? (name :: rest) = some entry) :
    ∃ entries inner, tree = .directory entries ∧ Table.get? name entries = some inner ∧
      inner.at? rest = some entry := by
  obtain ⟨inner, foundInner, foundEntry⟩ := Option.bind_eq_some_iff.mp found
  cases tree with
  | file content => nomatch foundInner
  | directory entries => exact ⟨entries, inner, rfl, foundInner, foundEntry⟩

/-- What was written is seen at its place, and everything else as before. -/
theorem Entry.HasPlace.seen?_write {tree : Entry} {place : List String}
    (there : tree.HasPlace place) (content : List UInt8) (names : List String) :
    (tree.write content place).seen? names =
      if names = place then some (some content) else tree.seen? names := by
  obtain ⟨front, name, entries, rfl, found, noDirectory⟩ := there
  induction front generalizing tree names with
  | nil =>
    obtain rfl := Option.some.inj found
    rw [List.nil_append, show (Entry.directory entries).write content [name] =
      .directory (Table.put name (.file content) entries) from rfl]
    cases names with
    | nil => rfl
    | cons first rest =>
      rw [seen?_cons, seen?_cons, Entry.entries, Entry.entries, Table.get?_put]
      by_cases same : name = first
      · subst same
        cases rest with
        | nil => rw [if_pos rfl, if_pos rfl]; rfl
        | cons next others =>
          rw [if_pos rfl, if_neg (by simp)]
          cases old : Table.get? name entries with
          | none => rfl
          | some entry =>
            cases entry with
            | file _ => rfl
            | directory inner => exact absurd old (noDirectory inner)
      · rw [if_neg same, if_neg (by simp [Ne.symm same])]
  | cons part front inductionHypothesis =>
    obtain ⟨outer, inner, rfl, foundInner, found⟩ := at?_cons_eq_some found
    rw [List.cons_append, write_cons (by simp) foundInner]
    cases names with
    | nil => rfl
    | cons first rest =>
      rw [seen?_cons, seen?_cons, Entry.entries, Entry.entries, Table.get?_put]
      by_cases same : part = first
      · subst same
        rw [if_pos rfl, Option.bind_some, inductionHypothesis rest found, foundInner,
          Option.bind_some]
        simp only [List.cons.injEq, true_and]
      · rw [if_neg same, if_neg (by simp [Ne.symm same])]

/-- Of two files written at one place the later one stays. -/
theorem Entry.HasPlace.write_write {tree : Entry} {place : List String}
    (there : tree.HasPlace place) (former latter : List UInt8) :
    (tree.write former place).write latter place = tree.write latter place := by
  obtain ⟨front, name, entries, rfl, found, -⟩ := there
  induction front generalizing tree with
  | nil =>
    obtain rfl := Option.some.inj found
    exact congrArg Entry.directory (Table.put_put name _ _ entries)
  | cons part front inductionHypothesis =>
    obtain ⟨outer, inner, rfl, foundInner, found⟩ := at?_cons_eq_some found
    have more : front ++ [name] ≠ [] := by simp
    rw [List.cons_append, write_cons more foundInner, write_cons more foundInner,
      write_cons more (by rw [Table.get?_put, if_pos rfl]), inductionHypothesis found,
      Table.put_put]

theorem Entry.directory_write (content : List UInt8) (place : List String)
    (entries : List (String × Entry)) :
    ∃ written, (Entry.directory entries).write content place = .directory written := by
  match place with
  | [] => exact ⟨_, rfl⟩
  | [name] => exact ⟨_, rfl⟩
  | name :: next :: rest =>
    simp only [write]
    split
    · exact ⟨_, rfl⟩
    · exact ⟨_, rfl⟩

theorem FileSystem.workingDirectory_save (system : FileSystem) (text : Text)
    (place : List String) :
    (system.save text place).workingDirectory = system.workingDirectory := by
  rw [save]
  cases text.string? <;> rfl

/-- What a file holds that a text is written to: nothing if the text has no encoding. -/
def Text.saved (text : Text) : List UInt8 :=
  (text.string?.map Utf8.encode).getD []

/-- Opening a file, which empties it, and filling it is one write. -/
theorem FileSystem.top_save {system : FileSystem} {place : List String}
    (there : system.top.HasPlace place) (text : Text) :
    (system.save text place).top = system.top.write text.saved place := by
  have top_entries (content : List UInt8) :
      Entry.directory (system.top.write content place).entries =
        system.top.write content place := by
    obtain ⟨written, same⟩ := Entry.directory_write content place system.entries
    rw [FileSystem.top, same]
    rfl
  rw [FileSystem.top, save, Text.saved]
  cases text.string? with
  | none => exact top_entries []
  | some string =>
    simp only [there.write_write, Option.map_some, Option.getD_some]
    exact top_entries _

/-- The files with a file saved at its place: it is seen there, and everything else as before. -/
theorem FileSystem.seen?_save {system : FileSystem} {place : List String}
    (there : system.top.HasPlace place) (text : Text) (names : List String) :
    (system.save text place).top.seen? names =
      if names = place then some (some text.saved) else system.top.seen? names := by
  rw [top_save there, there.seen?_write]

end GoApiDoc
