/-
This file merges descriptions of paths into a document. A path that the document does not have
takes the given description itself and no copy of it. What is merged into the path from then on
changes that description wherever it is held, also in the table that it came with.

So a description is an object here, known by the path that it describes and a number, and tables of
paths hold the numbers. A table that is merged a second time brings its descriptions as they are by
then.
-/

import GoApiDoc.Document.Basic

namespace GoApiDoc

namespace Document

/-- What the descriptions of each path say, by their numbers. -/
abbrev Descriptions := Text → Nat → PathItem

/-- The descriptions with one of them changed. -/
def Descriptions.set (descriptions : Descriptions) (path : Text) (number : Nat)
    (item : PathItem) : Descriptions :=
  fun otherPath otherNumber =>
    if otherPath = path ∧ otherNumber = number then item else descriptions otherPath otherNumber

/-- A document whose paths have their descriptions by number. -/
structure Shared where
  /-- All of the document but its paths. -/
  rest : Document
  descriptions : Descriptions
  paths : Table Nat

/-- The paths with what their descriptions say. -/
def Shared.shown (shared : Shared) : Table PathItem :=
  shared.paths.map fun entry => (entry.1, shared.descriptions entry.1 entry.2)

/-- The document with what the descriptions of its paths say. -/
def Shared.document (shared : Shared) : Document :=
  { shared.rest with paths := shared.shown }

/-- One more description of a path: merged into the one that is there, or else held itself. -/
def Shared.mergePath (shared : Shared) (path : Text) (number : Nat) : Shared :=
  match shared.paths.get? path with
  | none => { shared with paths := shared.paths.put path number }
  | some existing =>
    let merged := (shared.descriptions path existing).merge (shared.descriptions path number)
    { shared with descriptions := shared.descriptions.set path existing merged }

/-- Further descriptions of paths, one after the other. -/
def Shared.mergePaths (shared : Shared) (items : Table Nat) : Shared :=
  items.foldl (fun shared entry => shared.mergePath entry.1 entry.2) shared

/-- The names of a table, numbered from a number on. -/
def numbered {α : Type} (number : Nat) : Table α → Table Nat
  | [] => []
  | (name, _) :: rest => (name, number) :: numbered (number + 1) rest

/-- A document and a table of descriptions that is no part of it yet, each description with a
number of its own. -/
def withTable (document : Document) (items : Table PathItem) : Shared where
  rest := document
  descriptions := fun _ number => ((document.paths ++ items)[number]?.map Prod.snd).getD {}
  paths := numbered 0 document.paths

/-- The document with further descriptions of paths. -/
def mergePaths (document : Document) (items : Table PathItem) : Document :=
  ((document.withTable items).mergePaths (numbered document.paths.length items)).document

end Document

end GoApiDoc
