/-
This file is the command: what its words ask for, and what comes of it. The document goes to
the standard output or into a file, reports and errors go to the standard error output. A
file is written only when the whole document is there.
-/

import GoApiDoc.Command.Options
import GoApiDoc.Report

namespace GoApiDoc.Command

open Text

/-! ### Requests -/

/-- What a run of the command is to do. -/
structure Request where
  verbose : Bool := false
  path : String := "."
  format : Format := .json
  output : String := "-"
  deriving DecidableEq, Repr

/-- What the words of the command ask for. -/
inductive Wish
  | run (request : Request)
  | help
  | misuse
  | notPath
  deriving DecidableEq, Repr

/-- The option for help, which every level of the command has. -/
def helpSwitch : Switch :=
  { name := "help" }

/-- The options of the whole command. -/
def outerSwitches : List Switch :=
  [{ name := "verbose", letter := some 'v' }, helpSwitch]

/-- The options for documents. -/
def documentSwitches : List Switch :=
  [{ name := "format", letter := some 'f', takesValue := true },
   { name := "output", letter := some 'o', takesValue := true }, helpSwitch]

/-- Goes on with sorted words, unless they are none or ask for help. -/
def unlessHelp (sorted : Option Sorted) (next : Sorted → Wish) : Wish :=
  match sorted with
  | none => .misuse
  | some sorted => if sorted.has "help" then .help else next sorted

/-- Whether a word cannot be a path, because it has a character that ends paths. -/
def isNotPath (word : String) : Bool :=
  word.toList.contains '\x00'

/-- The request for a document. The first argument has to be a path even where there are too
many. -/
def documentRequest (verbose : Bool) (sorted : Sorted) : Wish :=
  match Format.ofWord? ((sorted.value? "format").getD "json") with
  | none => .misuse
  | some format =>
    let output := (sorted.value? "output").getD "-"
    match sorted.arguments with
    | [] => .run { verbose, format, output }
    | path :: others =>
      if isNotPath path then .notPath
      else if others.isEmpty then .run { verbose, path, format, output }
      else .misuse

/-- What the words of the command ask for: options of the whole, the group, the command in
the group, and its own options and argument. -/
def wishOf (words : List String) : Wish :=
  unlessHelp (sortWords outerSwitches false words) fun outer =>
    match outer.arguments with
    | "generate" :: rest =>
      unlessHelp (sortWords [helpSwitch] false rest) fun group =>
        match group.arguments with
        | "spec" :: rest =>
          unlessHelp (sortWords documentSwitches true rest) (documentRequest (outer.has "verbose"))
        | _ => .misuse
    | _ => .misuse

/-! ### Outcomes -/

/-- What came of the command. `written` is the text for the wanted file, which is opened for it also
where the text has no encoding, and `unexplained` the fault for which there are no words. -/
structure Outcome where
  exitCode : Nat := 0
  output : String := ""
  errors : String := ""
  written : Option Text := none
  unexplained : Option RunFault := none

/-- A report as a line: the level in eight columns, then the words. -/
def reportLine (event : Event) : String :=
  let level := event.level.word
  String.ofList (level.toList ++ List.replicate (8 - level.length) ' ') ++ " | " ++
    event.message ++ "\n"

/-- The lines of the reports that are shown: without the wish for more, only warnings. -/
def shownReports (verbose : Bool) (log : List Event) : String :=
  String.join ((log.filter fun event => verbose || event.level == .warning).map reportLine)

/-- The length of the parameters and the final letter of a terminal sequence. -/
def sequenceLength : List Char → Option Nat
  | [] => none
  | char :: rest =>
    if char == ';' || char == '?' || char.isDigit then (sequenceLength rest).map (· + 1)
    else if char.isAlpha then some 1
    else none

/-- The text without the sequences by which terminals change colours. -/
def withoutColours (text : List Char) : List Char :=
  match text with
  | '\x1b' :: '[' :: rest =>
    match sequenceLength rest with
    | some length => withoutColours (rest.drop length)
    | none => '\x1b' :: withoutColours ('[' :: rest)
  | char :: rest => char :: withoutColours rest
  | [] => []
termination_by text.length
decreasing_by all_goals (simp only [List.length_drop, List.length_cons]; omega)

/-- A line for the user. -/
def noteLine (text : String) : String :=
  String.ofList (withoutColours text.toList) ++ "\n"

/-- The message for an output that is not written. -/
def cannotWrite (output reason : String) : String :=
  "cannot write " ++ output ++ ": " ++ reason

/-- Why the wanted file cannot be written, in words. -/
def obstacleText (output : String) (fault : WriteFault) : String :=
  fault.message ++ ": " ++ quoted (Path.ofText output).text

/-- The root of the sources, seen from the working directory. -/
def Request.root (workingDirectory : Path) (request : Request) : Path :=
  workingDirectory.under (Path.ofText request.path)

/-- What a fault of the run is reported as. A root that cannot be looked for counts among the
reasons for which there is no output. -/
def Request.report? (request : Request) (details : Details) (fault : RunFault) : Option String :=
  match fault with
  | .rootTooLong _ => (fault.message? details).map (cannotWrite request.output)
  | _ => fault.message? details

/-- The outcome of a fault for which there are no words. -/
def Outcome.unexplainedFault (fault : RunFault) : Outcome :=
  { exitCode := 1, unexplained := some fault }

/-- Carries a request out, given what was found at the root and why the wanted file cannot be
written, if it cannot. The text of the document is encoded only when it is written. -/
def Request.outcome (request : Request) (details : Details) (workingDirectory : Path)
    (found : Except PathFault Entry) (obstacle : Option WriteFault) : Outcome :=
  let generated := generate request.format (request.root workingDirectory) found
  let reports := shownReports request.verbose generated.log
  let failed (message : String) : Outcome :=
    { exitCode := 1, errors := reports ++ noteLine ("Error: " ++ message) }
  match generated.result with
  | .error fault =>
    match request.report? details fault with
    | none => .unexplainedFault fault
    | some message => failed message
  | .ok text =>
    if request.output = "-" then
      match text.string? with
      | some string => { output := string, errors := reports }
      | none => .unexplainedFault .notEncodable
    else if isNotPath request.output then .unexplainedFault .notPath
    else
      match obstacle, text.string? with
      | some fault, _ => failed (cannotWrite request.output (obstacleText request.output fault))
      | none, some _ =>
        { errors := reports ++ noteLine ("Specification saved to " ++ request.output)
          written := some text }
      | none, none => { Outcome.unexplainedFault .notEncodable with written := some text }

/-- The outcome where the words ask for help. -/
def Outcome.help : Outcome :=
  { output := "Usage: [-v] generate spec [-f json|yaml] [-o FILE] [PATH]\n" }

/-- The outcome where the words are no command. -/
def Outcome.misuse : Outcome :=
  { exitCode := 2 }

/-! ### In a system of files -/

/-- The files after a run: the wanted file is opened if there is something to write and a
place for it. -/
def filesAfter (system : FileSystem) (place : Except WriteFault (List String))
    (written : Option Text) : FileSystem :=
  match place, written with
  | .ok names, some text => system.save text names
  | _, _ => system

/-- What is found at the root of the sources. -/
def Request.found (request : Request) (system : FileSystem) : Except PathFault Entry :=
  system.find (Path.ofText request.path)

/-- Where the wanted file is written. -/
def Request.place (request : Request) (system : FileSystem) : Except WriteFault (List String) :=
  system.place (Path.ofText request.output)

/-- Carries a request out in a system of files. -/
def Request.carriedOut (request : Request) (details : Details) (system : FileSystem) :
    Outcome × FileSystem :=
  let place := request.place system
  let obstacle := match place with
    | .ok _ => none
    | .error fault => some fault
  let outcome :=
    request.outcome details system.workingDirectory (request.found system) obstacle
  (outcome, filesAfter system place outcome.written)

/-- The command in a system of files: what came of it, and the files afterwards. -/
def runFrom (details : Details) (system : FileSystem) (words : List String) :
    Outcome × FileSystem :=
  match wishOf words with
  | .help => (.help, system)
  | .misuse => (.misuse, system)
  | .notPath => (.unexplainedFault .notPath, system)
  | .run request => request.carriedOut details system

/-- The command in a working directory of which only the tree below it is known: what came of
it, and the tree afterwards. -/
def runIn (details : Details) (workingDirectory : Path) (tree : Entry) (words : List String) :
    Outcome × Entry :=
  let system := FileSystem.around workingDirectory.parts tree
  let (outcome, after) := runFrom details { system with workingDirectory } words
  (outcome, (after.top.descend [] workingDirectory.parts).toOption.getD tree)

end GoApiDoc.Command
