/-
This file holds the tokens of YAML. Block structure, which the text shows by indentation, is
made explicit by start and end tokens, and a key that is found out only when its colon comes
has a token of its own in front.
-/

import GoApiDoc.Text

namespace GoApiDoc.Yaml

/-- A directive line before a document. -/
inductive DirectiveLine
  | version (major minor : Nat)
  | tag (handle replacement : String)
  | other
  deriving DecidableEq, Repr

/-- A token. A tag has a handle and a suffix; without a handle the suffix is the whole tag. A
scalar is plain or enclosed in some way. -/
inductive Token
  | streamStart
  | streamEnd
  | directive (line : DirectiveLine)
  | documentStart
  | documentEnd
  | blockSequenceStart
  | blockMappingStart
  | blockEnd
  | flowSequenceStart
  | flowMappingStart
  | flowSequenceEnd
  | flowMappingEnd
  | blockEntry
  | flowEntry
  | key
  | value
  | alias (name : String)
  | anchor (name : String)
  | tag (handle : Option String) (suffix : String)
  | scalar (text : Text) (plain : Bool)
  deriving DecidableEq, Repr

end GoApiDoc.Yaml
