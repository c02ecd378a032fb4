/-
This file says which sources are found at a root, and in which order. In a tree in which no
directory repeats a name, the sources below a directory are its files with the suffix of Go
sources, at every depth, each of them once. The order in which directories list their entries
has no influence: sources are listed in an order of their own, `ListedBefore`, and a list in a
strict order is determined by its members.

In that order the files of a directory come before its subdirectories. It is therefore not the
order of paths, by components, wherever a subdirectory with sources comes by name before a
source beside it, and everywhere else it is.
-/

import GoApiDoc.Proofs.FileTree
import Mathlib.Data.List.Sort

namespace GoApiDoc

/-! ### Suffixes -/

/-- The suffix of a name: what begins with its last point, unless that is the first character or
the last one. -/
def suffixOf (name : String) : String :=
  let behind := (name.toList.reverse.takeWhile (· ≠ '.')).length
  let start := name.toList.length - (behind + 1)
  if 0 < start ∧ 0 < behind then String.ofList (name.toList.drop start) else ""

theorem isSourceName_iff (name : String) : isSourceName name = true ↔ suffixOf name = ".go" := by
  rw [isSourceName, Bool.and_eq_true, List.isSuffixOf_iff_suffix, decide_eq_true_eq, suffixOf]
  have ending : (".go" : String) = String.ofList ['.', 'g', 'o'] := rfl
  constructor
  · rintro ⟨⟨front, spelled⟩, long⟩
    rw [← spelled] at long ⊢
    have behind : ((front ++ ['.', 'g', 'o']).reverse.takeWhile (· ≠ '.')).length = 2 := by simp
    have start : (front ++ ['.', 'g', 'o']).length - (2 + 1) = front.length := by simp
    simp only [behind, start]
    rw [if_pos ⟨by simpa using long, by decide⟩, List.drop_left, ending]
  · intro suffix
    split at suffix
    · next inside =>
      rw [ending] at suffix
      have dropped := String.ofList_injective suffix
      refine ⟨dropped ▸ List.drop_suffix _ _, ?_⟩
      have length := congrArg List.length dropped
      rw [List.length_drop] at length
      simp only [List.length_cons, List.length_nil] at length
      omega
    · exact absurd suffix (by decide)

/-- There is a source where names lead: a file whose name has the suffix. -/
def Entry.SourceAt (tree : Entry) (names : List String) (content : List UInt8) : Prop :=
  tree.seen? names = some (some content) ∧
    ∃ front name, names = front ++ [name] ∧ suffixOf name = ".go"

/-- A source of a directory is one of its own files or a source of a subdirectory. -/
theorem Entry.sourceAt_directory {entries : List (String × Entry)}
    (distinct : (Table.names entries).Nodup) {names : List String} {content : List UInt8} :
    (Entry.directory entries).SourceAt names content ↔
      (∃ name, (name, .file content) ∈ entries ∧ suffixOf name = ".go" ∧ names = [name]) ∨
      ∃ name inner rest, (name, .directory inner) ∈ entries ∧ names = name :: rest ∧
        (Entry.directory inner).SourceAt rest content := by
  constructor
  · rintro ⟨seen, front, last, rfl, suffix⟩
    cases front with
    | nil =>
      refine .inl ⟨last, ?_, suffix, rfl⟩
      obtain ⟨entry, found, seen⟩ := Option.bind_eq_some_iff.mp (seen?_cons .. ▸ seen)
      cases entry with
      | file other =>
        obtain rfl := Option.some.inj (Option.some.inj seen)
        exact Table.mem_of_get? found
      | directory inner => nomatch Option.some.inj seen
    | cons name rest =>
      obtain ⟨entry, found, seen⟩ := Option.bind_eq_some_iff.mp (seen?_cons .. ▸ seen)
      cases entry with
      | file other =>
        cases rest with
        | nil => nomatch seen
        | cons next others => nomatch seen
      | directory inner =>
        exact .inr ⟨name, inner, rest ++ [last], Table.mem_of_get? found, rfl, seen, rest, last,
          rfl, suffix⟩
  · rintro (⟨name, member, suffix, rfl⟩ | ⟨name, inner, rest, member, rfl, seen, front, last, rfl,
      suffix⟩)
    · refine ⟨?_, [], name, rfl, suffix⟩
      rw [seen?_cons, Entry.entries, (Table.get?_eq_some_iff distinct).mpr member]
      rfl
    · refine ⟨?_, name :: front, last, rfl, suffix⟩
      rw [seen?_cons, Entry.entries, (Table.get?_eq_some_iff distinct).mpr member]
      exact seen

/-! ### Listings -/

/-- A source of a subdirectory, seen from the directory. -/
def SourceFile.within (name : String) (source : SourceFile) : SourceFile :=
  { source with parts := name :: source.parts }

/-- An entry of a directory with the sources it stands for. -/
def Listed.of : String × Entry → Listed
  | (name, .file content) =>
    ⟨name, true, if isSourceName name then [⟨[name], content⟩] else []⟩
  | (name, .directory entries) =>
    ⟨name, false, (Entry.sources (.directory entries)).map (SourceFile.within name)⟩

theorem listing_eq_map (entries : List (String × Entry)) :
    listing entries = entries.map Listed.of := by
  induction entries with
  | nil => rfl
  | cons entry rest inductionHypothesis =>
    obtain ⟨name, entry⟩ := entry
    cases entry with
    | file content => rw [listing, inductionHypothesis]; rfl
    | directory inner => rw [listing, inductionHypothesis]; rfl

theorem Listed.name_of (entry : String × Entry) : (Listed.of entry).name = entry.1 := by
  obtain ⟨name, entry⟩ := entry
  cases entry with
  | file content => rfl
  | directory inner => rfl

theorem mem_inOrder {source : SourceFile} {entries : List Listed} :
    source ∈ inOrder entries ↔ ∃ entry ∈ entries, source ∈ entry.sources := by
  simp only [inOrder, byName, List.mem_flatMap, List.mem_append, List.mem_mergeSort,
    List.mem_filter]
  constructor
  · rintro ⟨entry, member | member, found⟩
    · exact ⟨entry, member.1, found⟩
    · exact ⟨entry, member.1, found⟩
  · rintro ⟨entry, member, found⟩
    cases kind : entry.isFile with
    | true => exact ⟨entry, .inl ⟨member, kind⟩, found⟩
    | false => exact ⟨entry, .inr ⟨member, by simp [kind]⟩, found⟩

theorem mem_sources_directory {source : SourceFile} {entries : List (String × Entry)} :
    source ∈ Entry.sources (.directory entries) ↔
      ∃ entry ∈ entries, source ∈ (Listed.of entry).sources := by
  rw [Entry.sources, mem_inOrder, listing_eq_map]
  simp only [List.mem_map, exists_exists_and_eq_and]

theorem mem_sources_of_file {name : String} {content : List UInt8} {source : SourceFile} :
    source ∈ (Listed.of (name, .file content)).sources ↔
      suffixOf name = ".go" ∧ source = ⟨[name], content⟩ := by
  rw [← isSourceName_iff, Listed.of]
  cases isSourceName name with
  | true => simp
  | false => simp

theorem mem_sources_of_directory {name : String} {inner : List (String × Entry)}
    {source : SourceFile} : source ∈ (Listed.of (name, .directory inner)).sources ↔
      ∃ below ∈ Entry.sources (.directory inner), source = below.within name := by
  simp only [Listed.of, List.mem_map, eq_comm]

/-- The sources below an entry are the files with the suffix that names lead to. -/
theorem mem_sources_iff {tree : Entry} (named : tree.WellNamed) (source : SourceFile) :
    source ∈ tree.sources ↔ tree.SourceAt source.parts source.content := by
  induction named generalizing source with
  | file content =>
    rw [Entry.sources]
    refine ⟨(nomatch ·), ?_⟩
    rintro ⟨seen, front, name, parts, _⟩
    rw [parts] at seen
    cases front with
    | nil => nomatch seen
    | cons first rest => nomatch seen
  | @directory entries distinct each inductionHypothesis =>
    rw [mem_sources_directory, Entry.sourceAt_directory distinct]
    obtain ⟨parts, content⟩ := source
    constructor
    · rintro ⟨⟨name, entry⟩, member, found⟩
      cases entry with
      | file other =>
        obtain ⟨suffix, same⟩ := mem_sources_of_file.mp found
        obtain ⟨rfl, rfl⟩ := SourceFile.mk.inj same
        exact .inl ⟨name, member, suffix, rfl⟩
      | directory inner =>
        obtain ⟨below, foundBelow, same⟩ := mem_sources_of_directory.mp found
        obtain ⟨rfl, rfl⟩ := SourceFile.mk.inj same
        exact .inr ⟨name, inner, below.parts, member, rfl,
          (inductionHypothesis _ member below).mp foundBelow⟩
    · rintro (⟨name, member, suffix, rfl⟩ | ⟨name, inner, rest, member, rfl, source⟩)
      · exact ⟨_, member, mem_sources_of_file.mpr ⟨suffix, rfl⟩⟩
      · exact ⟨_, member, mem_sources_of_directory.mpr
          ⟨⟨rest, content⟩, (inductionHypothesis _ member _).mpr source, rfl⟩⟩

/-! ### The order of sources -/

/-- The order in which the sources below a directory are listed: files by name, then what is in
subdirectories, by the names of these. -/
inductive ListedBefore : List String → List String → Prop
  | files {first second : String} (before : first < second) : ListedBefore [first] [second]
  | fileFirst (file directory name : String) (rest : List String) :
      ListedBefore [file] (directory :: name :: rest)
  | directories {first second : String} (before : first < second) (name other : String)
      (rest others : List String) : ListedBefore (first :: name :: rest) (second :: other :: others)
  | inside (directory : String) {first second : List String} (before : ListedBefore first second) :
      ListedBefore (directory :: first) (directory :: second)

theorem ListedBefore.asymm {first second : List String} (before : ListedBefore first second) :
    ¬ ListedBefore second first := by
  induction before with
  | files before =>
    rintro (after | _ | _ | ⟨_, after⟩)
    · exact String.lt_asymm before after
    · nomatch after
  | fileFirst file directory name rest =>
    rintro (_ | _ | _ | ⟨_, after⟩)
    nomatch after
  | directories before name other rest others =>
    rintro (_ | _ | ⟨after⟩ | _)
    · exact String.lt_asymm before after
    · exact String.lt_irrefl _ before
  | inside directory before inductionHypothesis =>
    rintro (after | _ | ⟨after⟩ | ⟨_, after⟩)
    · exact String.lt_irrefl _ after
    · nomatch before
    · exact String.lt_irrefl _ after
    · exact inductionHypothesis after

/-- One source is listed before another. -/
def SourceFile.Before (first second : SourceFile) : Prop :=
  ListedBefore first.parts second.parts

instance : Std.Irrefl SourceFile.Before := ⟨fun _ before => before.asymm before⟩

instance : Std.Antisymm SourceFile.Before :=
  ⟨fun _ _ before after => absurd after before.asymm⟩

/-- Listed entries with distinct names are in the order of their names. -/
theorem pairwise_byName {entries : List Listed} (distinct : (entries.map Listed.name).Nodup) :
    (byName entries).Pairwise fun first second => first.name < second.name := by
  have sorted : (byName entries).Pairwise fun first second =>
      (!decide (second.name < first.name)) = true := by
    refine List.pairwise_mergeSort (fun first second third former latter => ?_)
      (fun first second => ?_) entries
    · simp only [Bool.not_eq_true', decide_eq_false_iff_not, String.not_lt] at former latter ⊢
      exact String.le_trans former latter
    · simp only [Bool.or_eq_true, Bool.not_eq_true', decide_eq_false_iff_not, String.not_lt]
      exact String.le_total _ _
  have apart : (byName entries).Pairwise fun first second => first.name ≠ second.name :=
    List.pairwise_map.mp (((List.mergeSort_perm entries _).map Listed.name).nodup_iff.mpr distinct)
  refine (sorted.and apart).imp fun both => ?_
  have least := both.1
  simp only [Bool.not_eq_true', decide_eq_false_iff_not, String.not_lt] at least
  exact Std.lt_of_le_of_ne least both.2

/-- Some of the entries of a directory, listed by name. -/
def listedBy (kind : Listed → Bool) (entries : List (String × Entry)) : List Listed :=
  byName ((listing entries).filter kind)

theorem sources_directory (entries : List (String × Entry)) :
    Entry.sources (.directory entries) =
      (listedBy Listed.isFile entries ++ listedBy (fun entry => !entry.isFile) entries).flatMap
        Listed.sources := rfl

theorem mem_listedBy {entries : List (String × Entry)} {kind : Listed → Bool} {listed : Listed}
    (member : listed ∈ listedBy kind entries) :
    kind listed = true ∧ ∃ entry ∈ entries, Listed.of entry = listed := by
  rw [listedBy, byName, List.mem_mergeSort, List.mem_filter, listing_eq_map, List.mem_map] at member
  exact member.symm

theorem pairwise_listedBy {entries : List (String × Entry)}
    (distinct : (Table.names entries).Nodup) (kind : Listed → Bool) :
    (listedBy kind entries).Pairwise fun first second => first.name < second.name := by
  have names : (listing entries).map Listed.name = Table.names entries := by
    rw [listing_eq_map, List.map_map]
    exact List.map_congr_left fun entry _ => Listed.name_of entry
  exact pairwise_byName ((List.filter_sublist.map Listed.name).nodup (names ▸ distinct))

/-- A source that a listed file stands for has the name of the file for its only part. -/
theorem parts_of_listed_file {entries : List (String × Entry)} {listed : Listed}
    {source : SourceFile} (member : listed ∈ listedBy Listed.isFile entries)
    (found : source ∈ listed.sources) : source.parts = [listed.name] := by
  obtain ⟨isFile, ⟨name, entry⟩, -, rfl⟩ := mem_listedBy member
  cases entry with
  | file content => exact congrArg SourceFile.parts (mem_sources_of_file.mp found).2
  | directory inner => nomatch isFile

/-- A source that a listed directory stands for has the name of the directory for its first part,
and further parts. -/
theorem parts_of_listed_directory {entries : List (String × Entry)} {listed : Listed}
    {source : SourceFile} (each : ∀ entry ∈ entries, entry.2.WellNamed)
    (member : listed ∈ listedBy (fun entry => !entry.isFile) entries)
    (found : source ∈ listed.sources) :
    ∃ name rest, source.parts = listed.name :: name :: rest := by
  obtain ⟨isDirectory, ⟨name, entry⟩, memberEntry, rfl⟩ := mem_listedBy member
  cases entry with
  | file content => nomatch isDirectory
  | directory inner =>
    obtain ⟨below, foundBelow, rfl⟩ := mem_sources_of_directory.mp found
    obtain ⟨-, front, last, parts, -⟩ := (mem_sources_iff (each _ memberEntry) below).mp foundBelow
    cases front with
    | nil => exact ⟨last, [], congrArg (name :: ·) parts⟩
    | cons first rest => exact ⟨first, rest ++ [last], congrArg (name :: ·) parts⟩

/-- The sources that one listed entry stands for are in order if those below it are. -/
theorem pairwise_listed (entry : String × Entry)
    (below : entry.2.sources.Pairwise SourceFile.Before) :
    (Listed.of entry).sources.Pairwise SourceFile.Before := by
  obtain ⟨name, entry⟩ := entry
  cases entry with
  | file content =>
    rw [Listed.of]
    split
    · exact List.pairwise_singleton _ _
    · exact .nil
  | directory inner => exact List.pairwise_map.mpr (below.imp (ListedBefore.inside name))

/-- The sources below an entry are listed in order. -/
theorem pairwise_sources {tree : Entry} (named : tree.WellNamed) :
    tree.sources.Pairwise SourceFile.Before := by
  induction named with
  | file content => exact .nil
  | @directory entries distinct each inductionHypothesis =>
    rw [sources_directory, List.pairwise_flatMap, List.pairwise_append]
    refine ⟨fun listed member => ?_, ?_, ?_, ?_⟩
    · obtain ⟨entry, memberEntry, rfl⟩ : ∃ entry ∈ entries, Listed.of entry = listed :=
        (List.mem_append.mp member).elim (mem_listedBy · |>.2) (mem_listedBy · |>.2)
      exact pairwise_listed entry (inductionHypothesis entry memberEntry)
    · refine (pairwise_listedBy distinct _).imp_of_mem fun memberFirst memberSecond before => ?_
      intro first foundFirst second foundSecond
      rw [SourceFile.Before, parts_of_listed_file memberFirst foundFirst,
        parts_of_listed_file memberSecond foundSecond]
      exact .files before
    · refine (pairwise_listedBy distinct _).imp_of_mem fun memberFirst memberSecond before => ?_
      intro first foundFirst second foundSecond
      obtain ⟨name, rest, partsFirst⟩ := parts_of_listed_directory each memberFirst foundFirst
      obtain ⟨other, others, partsSecond⟩ := parts_of_listed_directory each memberSecond foundSecond
      rw [SourceFile.Before, partsFirst, partsSecond]
      exact .directories before ..
    · intro file member directory memberDirectory first foundFirst second foundSecond
      obtain ⟨name, rest, partsSecond⟩ := parts_of_listed_directory each memberDirectory foundSecond
      rw [SourceFile.Before, parts_of_listed_file member foundFirst, partsSecond]
      exact .fileFirst ..

/-- Trees with the same sources list them alike. -/
theorem sources_congr {first second : Entry} (namedFirst : first.WellNamed)
    (namedSecond : second.WellNamed) (same : ∀ names, first.seen? names = second.seen? names) :
    first.sources = second.sources := by
  refine (pairwise_sources namedFirst).eq_of_mem_iff (pairwise_sources namedSecond) fun source => ?_
  rw [mem_sources_iff namedFirst, mem_sources_iff namedSecond, Entry.SourceAt, Entry.SourceAt, same]

/-! ### Discovery -/

/-- The sources at a root, with their paths. -/
def FileSystem.sources (system : FileSystem) (root : Path) :
    Except PathFault (List (Path × List UInt8)) :=
  (system.find root).map (sourcesAt root)

theorem sourcesAt_directory (root : Path) (entries : List (String × Entry)) :
    sourcesAt root (.directory entries) = (Entry.directory entries).sources.map fun source =>
      (root.append source.parts, source.content) := rfl

theorem Path.append_injective {path : Path} {first second : List String}
    (same : path.append first = path.append second) : first = second :=
  List.append_cancel_left (congrArg Path.parts same)

/-- The order of listing does not show in the sources of an entry. -/
theorem sourcesAt_relisted (root : Path) {first second : Entry} (relisted : first.Relisted second)
    (named : first.WellNamed) : sourcesAt root second = sourcesAt root first := by
  cases first with
  | file content => rw [relisted.eq_file]
  | directory entries =>
    obtain ⟨listed, rfl⟩ := relisted.eq_directory
    rw [sourcesAt_directory, sourcesAt_directory,
      sources_congr named (relisted.wellNamed named) (relisted.seen? named)]

theorem mem_sourcesAt_directory {root path : Path} {entries : List (String × Entry)}
    {content : List UInt8} (named : (Entry.directory entries).WellNamed) :
    (path, content) ∈ sourcesAt root (.directory entries) ↔
      ∃ names, path = root.append names ∧ (Entry.directory entries).SourceAt names content := by
  rw [sourcesAt_directory, List.mem_map]
  constructor
  · rintro ⟨source, member, same⟩
    obtain ⟨rfl, rfl⟩ := Prod.mk.inj same
    exact ⟨source.parts, rfl, (mem_sources_iff named source).mp member⟩
  · rintro ⟨names, rfl, source⟩
    exact ⟨⟨names, content⟩, (mem_sources_iff named _).mpr source, rfl⟩

theorem nodup_sourcesAt_directory {entries : List (String × Entry)} (root : Path)
    (named : (Entry.directory entries).WellNamed) :
    ((sourcesAt root (.directory entries)).map Prod.fst).Nodup := by
  rw [sourcesAt_directory, List.map_map]
  refine List.pairwise_map.mpr ((pairwise_sources named).imp fun {first second} before same => ?_)
  have parts : first.parts = second.parts := Path.append_injective same
  rw [SourceFile.Before, parts] at before
  exact before.asymm before

/-- In a tree in which no directory repeats a name, the sources at a directory are the files with
the suffix at any depth below it, each with its path and once; and whatever is at the root, the
sources there are the same when directories list their entries in another order. -/
theorem FileSystem.sources_complete (system : FileSystem) (named : system.top.WellNamed)
    (root : Path) :
    (∀ entries, system.find root = .ok (.directory entries) →
      ∃ found, system.sources root = .ok found ∧ (found.map Prod.fst).Nodup ∧
        ∀ path content, (path, content) ∈ found ↔
          ∃ names, path = root.append names ∧ (Entry.directory entries).SourceAt names content) ∧
    ∀ other, system.Relisted other → other.sources root = system.sources root := by
  constructor
  · intro entries found
    have namedRoot := wellNamed_of_find named found
    exact ⟨sourcesAt root (.directory entries), by rw [sources, found]; rfl,
      nodup_sourcesAt_directory root namedRoot, fun _ _ => mem_sourcesAt_directory namedRoot⟩
  · intro other relisted
    have same := relisted.find named root
    rw [sources, sources]
    generalize found : system.find root = entry, other.find root = entryOther at same ⊢
    cases same with
    | fault fault => rfl
    | found relisted =>
      exact congrArg Except.ok (sourcesAt_relisted root relisted (wellNamed_of_find named found))

/-- A directory with the name of a source, a file without a name in front of the suffix, and the
entries of the root of the search in two orders. -/
theorem FileSystem.sources_complete_two_listings :
    let inner : Entry := .directory [("x.go", .file [1]), (".go", .file [2])]
    let system : FileSystem :=
      ⟨[("p", .directory [("b.go", .file [3]), ("a.go", inner), ("c.txt", .file [])])], {}⟩
    let other : FileSystem :=
      ⟨[("p", .directory [("a.go", inner), ("b.go", .file [3]), ("c.txt", .file [])])], {}⟩
    let root : Path := { parts := ["p"] }
    system.top.WellNamed ∧ system.Relisted other ∧ other.sources root = system.sources root ∧
      ∃ entries, system.find root = .ok (.directory entries) ∧
        ∃ found, system.sources root = .ok found ∧ (found.map Prod.fst).Nodup ∧
          ∀ path content, (path, content) ∈ found ↔
            ∃ names, path = root.append names ∧
              (Entry.directory entries).SourceAt names content := by
  intro inner system other root
  have named : system.top.WellNamed := by
    refine .directory (by decide) (List.forall_mem_singleton.mpr (.directory (by decide) ?_))
    have namedInner : inner.WellNamed := .directory (by decide)
      (List.forall_mem_cons.mpr ⟨.file _, List.forall_mem_singleton.mpr (.file _)⟩)
    exact List.forall_mem_cons.mpr ⟨.file _, List.forall_mem_cons.mpr
      ⟨namedInner, List.forall_mem_singleton.mpr (.file _)⟩⟩
  have relisted : system.Relisted other :=
    ⟨.within [] "p" [] (.listing (.swap ..)), rfl⟩
  obtain ⟨complete, independent⟩ := sources_complete system named root
  exact ⟨named, relisted, independent other relisted, _, rfl, complete _ rfl⟩

/-! ### The order of paths -/

/-- A path that is not behind another in the order of paths, which goes by their components. -/
def Path.NotBehind (first second : Path) : Prop :=
  ¬ second.parts < first.parts

instance (first second : Path) : Decidable (first.NotBehind second) :=
  inferInstanceAs (Decidable (¬ second.parts < first.parts))

/-- In some directory a source comes by name behind a subdirectory beside it that has sources. -/
def Entry.Misplaces (tree : Entry) : Prop :=
  ∃ front file directory rest content other, tree.SourceAt (front ++ [file]) content ∧
    tree.SourceAt (front ++ directory :: rest) other ∧ rest ≠ [] ∧ directory < file

theorem append_lt_append_iff {front first second : List String} :
    front ++ first < front ++ second ↔ first < second := by
  induction front with
  | nil => rfl
  | cons name rest inductionHypothesis =>
    rw [List.cons_append, List.cons_append, List.cons_lt_cons_self, inductionHypothesis]

/-- What is listed before is before in the order of paths, unless it is a file that comes by name
behind a subdirectory beside it. -/
theorem ListedBefore.lt_or {first second : List String} (before : ListedBefore first second) :
    first < second ∨ ∃ front file directory rest, first = front ++ [file] ∧
      second = front ++ directory :: rest ∧ rest ≠ [] ∧ directory < file := by
  induction before with
  | files before => exact .inl (List.cons_lt_cons_iff.mpr (.inl before))
  | fileFirst file directory name rest =>
    rcases Std.lt_trichotomy file directory with before | rfl | before
    · exact .inl (List.cons_lt_cons_iff.mpr (.inl before))
    · exact .inl (List.cons_lt_cons_iff.mpr (.inr ⟨rfl, List.nil_lt_cons ..⟩))
    · exact .inr ⟨[], file, directory, name :: rest, rfl, rfl, List.cons_ne_nil _ _, before⟩
  | directories before => exact .inl (List.cons_lt_cons_iff.mpr (.inl before))
  | inside directory before inductionHypothesis =>
    rcases inductionHypothesis with less | ⟨front, file, name, rest, rfl, rfl, more, behind⟩
    · exact .inl (List.cons_lt_cons_self.mpr less)
    · exact .inr ⟨directory :: front, file, name, rest, rfl, rfl, more, behind⟩

theorem listedBefore_misplaced {file directory : String} {rest : List String} (front : List String)
    (more : rest ≠ []) : ListedBefore (front ++ [file]) (front ++ directory :: rest) := by
  induction front with
  | nil =>
    obtain ⟨name, others, rfl⟩ := List.exists_cons_of_ne_nil more
    exact .fileFirst ..
  | cons name front inductionHypothesis => exact .inside name inductionHypothesis

/-- What holds along a list in a strict order holds of every two members in that order. -/
theorem rel_of_pairwise {Item : Type} {before related : Item → Item → Prop}
    (asymm : ∀ first second, before first second → ¬ before second first) {items : List Item}
    (ordered : items.Pairwise before) (holds : items.Pairwise related) {first second : Item}
    (memberFirst : first ∈ items) (memberSecond : second ∈ items)
    (isBefore : before first second) : related first second := by
  obtain ⟨front, rest, rfl⟩ := List.append_of_mem memberFirst
  obtain ⟨-, holdsRest, -⟩ := List.pairwise_append.mp holds
  obtain ⟨-, -, frontBefore⟩ := List.pairwise_append.mp ordered
  rcases List.mem_append.mp memberSecond with member | member
  · exact absurd (frontBefore _ member _ List.mem_cons_self) (asymm _ _ isBefore)
  · rcases List.mem_cons.mp member with rfl | member
    · exact absurd isBefore (asymm _ _ isBefore)
    · exact List.rel_of_pairwise_cons holdsRest member

/-- In a tree in which no directory repeats a name, the sources at a directory are in the order of
their paths exactly when no subdirectory with sources comes by name before a source beside it. -/
theorem FileSystem.sources_sorted_iff (system : FileSystem) (named : system.top.WellNamed)
    (root : Path) (entries : List (String × Entry))
    (found : system.find root = .ok (.directory entries)) :
    ((sourcesAt root (.directory entries)).map Prod.fst).Pairwise Path.NotBehind ↔
      ¬ (Entry.directory entries).Misplaces := by
  have namedRoot := wellNamed_of_find named found
  have ordered := pairwise_sources namedRoot
  rw [sourcesAt_directory, List.map_map, List.pairwise_map]
  constructor
  · rintro sorted ⟨front, file, directory, rest, content, other, source, sourceOther, more, behind⟩
    have notBehind := rel_of_pairwise (fun _ _ before => before.asymm) ordered sorted
      ((mem_sources_iff namedRoot ⟨_, content⟩).mpr source)
      ((mem_sources_iff namedRoot ⟨_, other⟩).mpr sourceOther) (listedBefore_misplaced front more)
    refine notBehind (append_lt_append_iff.mpr (append_lt_append_iff.mpr ?_))
    exact List.cons_lt_cons_iff.mpr (.inl behind)
  · intro placed
    refine ordered.imp_of_mem fun {first second} memberFirst memberSecond before => ?_
    have sourceFirst := (mem_sources_iff namedRoot first).mp memberFirst
    have sourceSecond := (mem_sources_iff namedRoot second).mp memberSecond
    rcases before.lt_or with less | ⟨front, file, directory, rest, parts, other, more, behind⟩
    · exact List.lt_asymm (append_lt_append_iff.mpr less)
    · rw [parts] at sourceFirst
      rw [other] at sourceSecond
      exact absurd ⟨front, file, directory, rest, _, _, sourceFirst, sourceSecond, more, behind⟩
        placed

/-- A subdirectory with a source that comes by name behind the source beside it. -/
theorem FileSystem.sources_sorted_iff_later_directory :
    let entries : List (String × Entry) :=
      [("c", .directory [("x.go", .file [1])]), ("b.go", .file [2])]
    let system : FileSystem := ⟨entries, {}⟩
    system.top.WellNamed ∧ system.find {} = .ok (.directory entries) ∧
      ((sourcesAt {} (.directory entries)).map Prod.fst).Pairwise Path.NotBehind ∧
      ¬ (Entry.directory entries).Misplaces := by
  intro entries system
  have namedInner : (Entry.directory [("x.go", .file [1])]).WellNamed :=
    .directory (List.nodup_singleton _) (List.forall_mem_singleton.mpr (.file _))
  have named : system.top.WellNamed := .directory (by decide) (List.forall_mem_cons.mpr
    ⟨namedInner, List.forall_mem_singleton.mpr (.file _)⟩)
  have sorted : ((sourcesAt {} (.directory entries)).map Prod.fst).Pairwise Path.NotBehind := by
    decide +kernel
  exact ⟨named, rfl, sorted, (sources_sorted_iff system named {} entries rfl).mp sorted⟩

/-- A source is listed before one in a subdirectory that comes by name before it. -/
theorem FileSystem.sources_not_sorted :
    let entries : List (String × Entry) :=
      [("b.go", .file [1]), ("a", .directory [("x.go", .file [2])])]
    let system : FileSystem := ⟨entries, {}⟩
    system.top.WellNamed ∧ system.find {} = .ok (.directory entries) ∧
      (sourcesAt {} (.directory entries)).map Prod.fst =
        [{ parts := ["b.go"] }, { parts := ["a", "x.go"] }] ∧
      ¬ ((sourcesAt {} (.directory entries)).map Prod.fst).Pairwise Path.NotBehind := by
  intro entries system
  have namedInner : (Entry.directory [("x.go", .file [2])]).WellNamed :=
    .directory (List.nodup_singleton _) (List.forall_mem_singleton.mpr (.file _))
  have named : system.top.WellNamed := .directory (by decide) (List.forall_mem_cons.mpr
    ⟨.file _, List.forall_mem_singleton.mpr namedInner⟩)
  exact ⟨named, rfl, by decide +kernel, by decide +kernel⟩

end GoApiDoc
