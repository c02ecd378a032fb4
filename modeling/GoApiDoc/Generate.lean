/-
This file is one run over sources: each file is read as text, its declarations are added to
one document, and the finished document is written in the wanted format. The first fault ends
the run, and nothing is written then.
-/

import GoApiDoc.Assembler
import GoApiDoc.Files
import GoApiDoc.Go.Source
import GoApiDoc.Yaml.Writer

namespace GoApiDoc

open Go Text Document

/-! ### Formats -/

/-- The formats of documents. -/
inductive Format
  | json
  | yaml
  deriving DecidableEq, Repr

/-- The format of a word. -/
def Format.ofWord? : String → Option Format
  | "json" => some .json
  | "yaml" => some .yaml
  | _ => none

/-- The message for a word that is no format. -/
def unknownFormat (word : String) : String :=
  "unsupported output format: " ++ word

/-- The text of a tree in a format; all its numbers must have a text. -/
def Format.write (format : Format) (tree : Json) : Except EncodeFault Text :=
  if tree.allText then
    match format with
    | .json => .ok tree.text
    | .yaml => .ok (.plain (Yaml.write tree))
  else .error .numberTooLong

/-- The text of a document in a format. -/
def Document.render (format : Format) (document : Document) : Except EncodeFault Text := do
  format.write (← Document.codec.encode document)

/-! ### Faults -/

/-- Why a run ends without a document. -/
inductive RunFault
  /-- There is nothing at the root. -/
  | noRoot (root : Path)
  /-- The root cannot be looked for, because a name on the way to it is too long. -/
  | rootTooLong (root : Path)
  /-- A path has a character that no path can have. -/
  | notPath
  /-- A file is no text. -/
  | notText (path : String) (fault : Utf8.Fault)
  /-- A file has no list of declarations. -/
  | source (path : String) (fault : SourceFault)
  /-- A directive is at fault. -/
  | assembly (fault : AssemblyFault)
  /-- The document holds what cannot be written. -/
  | unwritable (fault : EncodeFault)
  /-- The text of the document has no encoding. -/
  | notEncodable

/-! ### Reading files -/

/-- The text with every line ending written as a line feed. -/
def unifiedLines : List Char → List Char
  | '\r' :: '\n' :: rest => '\n' :: unifiedLines rest
  | '\r' :: rest => '\n' :: unifiedLines rest
  | char :: rest => char :: unifiedLines rest
  | [] => []

/-- The mark that may stand in front of a text in UTF-8. -/
def byteOrderMark : List UInt8 :=
  [0xEF, 0xBB, 0xBF]

/-- The text of a file. A mark in front is dropped, also when the file ends within it. -/
def fileText (content : List UInt8) : Except Utf8.Fault String := do
  let body :=
    if content.length < 3 && content.isPrefixOf byteOrderMark then []
    else if byteOrderMark.isPrefixOf content then content.drop 3
    else content
  return String.ofList (unifiedLines (← Utf8.decode body))

/-- The declarations of a file. -/
def readFile (path : String) (content : List UInt8) : Except RunFault (List Declaration) :=
  match fileText content with
  | .error fault => .error (.notText path fault)
  | .ok text =>
    match readSource text with
    | .error fault => .error (.source path fault)
    | .ok found => .ok found

/-! ### Runs -/

/-- What came of a run: the document as far as it was assembled, the reports, and the fault
that ended it. -/
structure Run where
  document : Document
  log : List Event := []
  fault : Option RunFault := none

/-- Adds the declarations of files to a document, up to the first fault. -/
def addFiles (document : Document) : List (Path × List UInt8) → Run
  | [] => ⟨document, [], none⟩
  | (path, content) :: rest =>
    let shown := path.text
    match readFile shown content with
    | .error fault => ⟨document, [.interpreting shown], some fault⟩
    | .ok found =>
      let assembled := addDeclarations document found
      let log := .interpreting shown :: .declarationsRead found.length shown :: assembled.log
      match assembled.fault with
      | some fault => ⟨assembled.document, log, some (.assembly fault)⟩
      | none =>
        let others := addFiles assembled.document rest
        { others with log := log ++ others.log }

/-- The closing report on a document. -/
def closingReport (files : Nat) (document : Document) : Event :=
  .interpreted files document.paths.length (document.components.schemas.getD []).length
    (document.components.parameters.getD []).length

/-- Assembles the document of files. -/
def documentOf (files : List (Path × List UInt8)) : Run :=
  let run := addFiles {} files
  match run.fault with
  | some _ => run
  | none => { run with log := run.log ++ [closingReport files.length run.document] }

/-- The text of a run, or why there is none, with the reports. -/
structure Generated where
  log : List Event
  result : Except RunFault Text

/-- Generates the text of the document for the sources at a root, given what was found there. -/
def generate (format : Format) (root : Path) (found : Except PathFault Entry) : Generated :=
  match found with
  | .error .absent => ⟨[], .error (.noRoot root)⟩
  | .error .tooLong => ⟨[], .error (.rootTooLong root)⟩
  | .ok entry =>
    let run := documentOf (sourcesAt root entry)
    match run.fault with
    | some fault => ⟨run.log, .error fault⟩
    | none =>
      match run.document.render format with
      | .error fault => ⟨run.log, .error (.unwritable fault)⟩
      | .ok text => ⟨run.log, .ok text⟩

end GoApiDoc
