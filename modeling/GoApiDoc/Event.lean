/-
This file lists what a run reports on its way, with the level and the words of each report.
-/

import GoApiDoc.Directive

namespace GoApiDoc

/-- How important a report is. -/
inductive Level
  | debug
  | info
  | warning
  deriving DecidableEq, Repr

/-- The word for a level. -/
def Level.word : Level → String
  | .debug => "DEBUG"
  | .info => "INFO"
  | .warning => "WARNING"

/-- A report. -/
inductive Event
  | interpreting (path : String)
  | declarationsRead (count : Nat) (path : String)
  | applying (kind : DirectiveKind) (line : Nat)
  | embeddedSkipped (field type : String)
  | fieldSkipped (type field spelling : String)
  | schemaMissing (type : String) (spelling : Option String)
  | interpreted (files paths schemas parameters : Nat)
  deriving DecidableEq, Repr

namespace Event

/-- The level of a report: what leaves something out is a warning. -/
def level : Event → Level
  | .fieldSkipped _ _ _ => .warning
  | .schemaMissing _ _ => .warning
  | .interpreted _ _ _ _ => .info
  | _ => .debug

/-- The report in words. -/
def message : Event → String
  | .interpreting path => "Interpreting " ++ path
  | .declarationsRead count path =>
    "Read " ++ toString count ++ " declarations from " ++ path
  | .applying kind line =>
    "Applying " ++ kind.word ++ " directive from line " ++ toString line
  | .embeddedSkipped field type => "Skipping embedded field " ++ field ++ " of " ++ type
  | .fieldSkipped type field spelling =>
    "Skipping field " ++ type ++ "." ++ field ++ ": no schema for type " ++ spelling
  | .schemaMissing type spelling =>
    "No schema for type " ++ type ++ " (" ++ spelling.getD "None" ++ "), using an empty object"
  | .interpreted files paths schemas parameters =>
    "Interpreted " ++ toString files ++ " files: " ++ toString paths ++ " paths, " ++
      toString schemas ++ " schemas, " ++ toString parameters ++ " parameters"

end Event

end GoApiDoc
