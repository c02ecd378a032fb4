/-
This file holds trees of files and the paths into them. A path that does not start at the root
of all files starts at the working directory, and a step back from the root leads to the root.

The sources of a tree are its regular files whose names end in the suffix of Go sources, in a
fixed order: in each directory first its own sources by name, then those of its subdirectories
by name. The order in which a directory lists its entries has no influence.
-/

import GoApiDoc.Table
import GoApiDoc.Text.Utf8

namespace GoApiDoc

open Text

/-! ### Paths -/

/-- Where a path starts: at a directory that is known from elsewhere, or at the root of all
files. A root of exactly two slashes is told apart from one of any other number. -/
inductive Start
  | here
  | root
  | doubleRoot
  deriving DecidableEq, Repr

/-- A path: where it starts, and its components. -/
structure Path where
  start : Start := .here
  parts : List String := []
  deriving DecidableEq, Repr

namespace Path

/-- Where a path starts that a text spells, by the slashes in front. -/
def startOf (text : List Char) : Start :=
  match (text.takeWhile (· = '/')).length with
  | 0 => .here
  | 2 => .doubleRoot
  | _ => .root

/-- The path that a text spells; empty components and single points do not count. -/
def ofText (text : String) : Path where
  start := startOf text.toList
  parts := ((text.toList.splitOn '/').map String.ofList).filter fun part =>
    !part.isEmpty && part != "."

/-- The spelling of a path; one without components that starts here is a point. -/
def text (path : Path) : String :=
  let body := "/".intercalate path.parts
  match path.start with
  | .here => if path.parts.isEmpty then "." else body
  | .root => "/" ++ body
  | .doubleRoot => "//" ++ body

/-- The path with further components. -/
def append (path : Path) (parts : List String) : Path :=
  { path with parts := path.parts ++ parts }

/-- One path seen from another: an absolute path stands for itself. -/
def under (base path : Path) : Path :=
  if path.start = .here then base.append path.parts else path

end Path

/-! ### Trees -/

/-- A file with its content, or a directory with its entries. -/
inductive Entry
  | file (content : List UInt8)
  | directory (entries : List (String × Entry))
  deriving Repr

/-- Why there is no entry at a path: there is none, or none can be, because a name in it is too
long. -/
inductive PathFault
  | absent
  | tooLong
  deriving DecidableEq, Repr

/-- Whether no entry can have a name, because it is too long. -/
def isTooLongName (name : String) : Bool :=
  255 < name.utf8ByteSize

/-- The entry that components lead to from `current`; `ancestors` are the directories around
it, the nearest first. A step back from a directory with none around it stays there. -/
def Entry.descend (ancestors : List Entry) (current : Entry) :
    List String → Except PathFault Entry
  | [] => .ok current
  | part :: rest =>
    match current with
    | .file _ => .error .absent
    | .directory entries =>
      if part = ".." then
        match ancestors with
        | [] => descend [] current rest
        | parent :: others => descend others parent rest
      else
        match Table.get? part entries with
        | none => .error (if isTooLongName part then .tooLong else .absent)
        | some entry => descend (current :: ancestors) entry rest

/-- The entries of a directory; a file has none. -/
def Entry.entries : Entry → List (String × Entry)
  | .file _ => []
  | .directory entries => entries

/-- All files, and the directory that paths start from. -/
structure FileSystem where
  /-- The entries of the root of all files. -/
  entries : List (String × Entry)
  workingDirectory : Path

/-- The root of all files. -/
def FileSystem.top (system : FileSystem) : Entry :=
  .directory system.entries

/-- The components that lead from the root of all files to a path. -/
def FileSystem.route (system : FileSystem) (path : Path) : List String :=
  (if path.start = .here then system.workingDirectory.parts else []) ++ path.parts

/-- The entry at a path. -/
def FileSystem.find (system : FileSystem) (path : Path) : Except PathFault Entry :=
  system.top.descend [] (system.route path)

/-- The files of which nothing is known but that names lead to a tree, which is the working
directory. -/
def FileSystem.around (names : List String) (tree : Entry) : FileSystem where
  entries := (names.foldr (fun name inner => .directory [(name, inner)]) tree).entries
  workingDirectory := { parts := names }

/-- The entry at a path, seen from a directory of which no path spells the name. -/
def Entry.find (tree : Entry) (path : Path) : Except PathFault Entry :=
  (FileSystem.around [""] tree).find path

/-! ### Sources -/

/-- Whether a name has the suffix of Go sources and something in front of it. -/
def isSourceName (name : String) : Bool :=
  ['.', 'g', 'o'].isSuffixOf name.toList && 3 < name.toList.length

/-- A source: the components that lead to it from where the search began, and its content. -/
structure SourceFile where
  parts : List String
  content : List UInt8
  deriving DecidableEq, Repr

/-- An entry of a directory together with the sources it stands for. -/
structure Listed where
  name : String
  isFile : Bool
  sources : List SourceFile

/-- Entries by their names. -/
def byName (entries : List Listed) : List Listed :=
  entries.mergeSort fun first second => !decide (second.name < first.name)

/-- The sources of listed entries: those of files first, then those of directories, both by
name. -/
def inOrder (entries : List Listed) : List SourceFile :=
  let files := entries.filter fun entry => entry.isFile
  let directories := entries.filter fun entry => !entry.isFile
  (byName files ++ byName directories).flatMap Listed.sources

mutual

/-- The sources below a directory, in order. -/
def Entry.sources : Entry → List SourceFile
  | .file _ => []
  | .directory entries => inOrder (listing entries)

/-- The entries of a directory with the sources they stand for. -/
def listing : List (String × Entry) → List Listed
  | [] => []
  | (name, .file content) :: rest =>
    ⟨name, true, if isSourceName name then [⟨[name], content⟩] else []⟩ :: listing rest
  | (name, .directory entries) :: rest =>
    ⟨name, false, (Entry.sources (.directory entries)).map fun source =>
      { source with parts := name :: source.parts }⟩ :: listing rest

end

/-- The sources at a root, with their paths: the root itself if it is a source, else those
below it. -/
def sourcesAt (root : Path) : Entry → List (Path × List UInt8)
  | .file content =>
    if isSourceName (root.parts.getLast?.getD "") then [(root, content)] else []
  | .directory entries =>
    (Entry.sources (.directory entries)).map fun source =>
      (root.append source.parts, source.content)

/-! ### Writing -/

/-- Why a file cannot be written. -/
inductive WriteFault
  | noDirectory
  | notDirectory
  | isDirectory
  | tooLong
  deriving DecidableEq, Repr

/-- The fault in words, with its number. -/
def WriteFault.message : WriteFault → String
  | .noDirectory => "[Errno 2] No such file or directory"
  | .notDirectory => "[Errno 20] Not a directory"
  | .isDirectory => "[Errno 21] Is a directory"
  | .tooLong => "[Errno 36] File name too long"

/-- Where a file is written that components lead to from `current`: the names that lead there
from the root of all files. `ancestors` are the directories around `current`, the nearest first,
and `names` lead to it. -/
def Entry.place (ancestors : List Entry) (names : List String) (current : Entry) :
    List String → Except WriteFault (List String)
  | [] =>
    match current with
    | .directory _ => .error .isDirectory
    | .file _ => .ok names
  | part :: rest =>
    match current with
    | .file _ => .error .notDirectory
    | .directory entries =>
      if part = ".." then
        match ancestors with
        | [] => place [] names current rest
        | parent :: others => place others names.dropLast parent rest
      else
        match Table.get? part entries with
        | some entry => place (current :: ancestors) (names ++ [part]) entry rest
        | none =>
          if isTooLongName part then .error .tooLong
          else if rest.isEmpty then .ok (names ++ [part])
          else .error .noDirectory

/-- Where a file is written at a path. -/
def FileSystem.place (system : FileSystem) (path : Path) : Except WriteFault (List String) :=
  system.top.place [] [] (system.route path)

/-- The entry with a file of the given content where names lead. Where there is no directory
for the file, nothing changes. -/
def Entry.write (content : List UInt8) : List String → Entry → Entry
  | _, .file old => .file old
  | [], .directory entries => .directory entries
  | [name], .directory entries => .directory (Table.put name (.file content) entries)
  | name :: rest, .directory entries =>
    match Table.get? name entries with
    | some entry => .directory (Table.put name (entry.write content rest) entries)
    | none => .directory entries

/-- The files after a text is written where names lead. The file is emptied when it is opened,
before the text is encoded. One that has no encoding leaves it empty. -/
def FileSystem.save (system : FileSystem) (text : Text) (names : List String) : FileSystem :=
  let emptied := system.top.write [] names
  match text.string? with
  | some string => { system with entries := (emptied.write (Utf8.encode string) names).entries }
  | none => { system with entries := emptied.entries }

end GoApiDoc
