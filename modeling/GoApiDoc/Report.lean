/-
This file puts the faults that end a run into words. A fault in the text of a directive is
reported with the comment that holds the directive. What exactly is wrong with a malformed
body, or with one that does not fit, is worded by the caller. Some faults have no words at
all: values of the right form that do not exist, and declarations that end where no message
was foreseen. They end the run without an explanation.
-/

import GoApiDoc.Generate

namespace GoApiDoc

open Document Go Text

/-- The words for what can be wrong with the body of a directive. -/
structure Details where
  malformed : String
  misfits : List Misfit → String

/-- The message about the directive in a comment. -/
def failedToDecode (comment reason : String) : String :=
  "failed to decode comment:\n" ++ comment ++ "\nError: " ++ reason

/-- What is wrong with a directive, if there are words for it. -/
def DirectiveFault.reason? (details : Details) : DirectiveFault → Option String
  | .unreadable .malformed => some details.malformed
  | .unreadable _ => none
  | .noBody kind => some (kind.word ++ " directive has no body")
  | .notMapping => some "parameter directive body must be a mapping"
  | .misfits found => some (details.misfits found)
  | .numberTooLong => none
  | .notType => none
  | .badTag _ => none

/-- The message for a value marked as a parameter, if there is one. -/
def ParameterFault.message? (fault : ParameterFault) : Option String :=
  match fault with
  | .badLiteral _ _ .escapeTooLarge => none
  | _ => some fault.message

/-- The message for declarations that cannot be added, if there is one. -/
def AssemblyFault.message? (details : Details) : AssemblyFault → Option String
  | .parameter fault => fault.message?
  | .directive failed fault => (fault.reason? details).map (failedToDecode failed.comment)

/-- The message for a source at a path, if there is one. -/
def Go.SourceFault.message? (path : String) (fault : SourceFault) : Option String :=
  match fault.fault with
  | .openTypeGroup => none
  | .badTag .escapeTooLarge _ => none
  | _ => some (fault.message path)

/-- The message for a root at which there is nothing. -/
def missingRoot (root : Path) : String :=
  "failed to read files under " ++ root.text ++ ": no such file or directory: " ++ root.text

/-- The message for a path with a name that is too long. -/
def pathTooLong (path : Path) : String :=
  WriteFault.tooLong.message ++ ": " ++ quoted path.text

/-- The message for what ended a run, if there is one. -/
def RunFault.message? (details : Details) : RunFault → Option String
  | .noRoot root => some (missingRoot root)
  | .rootTooLong root => some (pathTooLong root)
  | .notPath => none
  | .notText path fault => some (failedToInterpret path none fault.message)
  | .source path fault => fault.message? path
  | .assembly fault => fault.message? details
  | .unwritable _ => none
  | .notEncodable => none

end GoApiDoc
