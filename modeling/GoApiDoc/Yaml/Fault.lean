/-
This file lists the ways in which a YAML text has no value. Most are one fault: the text does
not follow the grammar, or a tag does not fit its node. The others are scalars that have the
form of a value which does not exist; they are told apart because they are reported apart.
-/

namespace GoApiDoc.Yaml

/-- Why a text has no value. -/
inductive Fault
  /-- The text is not well-formed, or a node does not fit its tag. -/
  | malformed
  /-- A number, date, time or code point of the right form that does not exist. -/
  | outOfRange
  /-- A code point escape beyond 31 bits. -/
  | escapeTooLarge
  /-- A node tagged as a truth value that is none of its words. -/
  | unknownWord
  /-- A node tagged as a timestamp that has not the form of one. -/
  | notTimestamp
  /-- A mapping tagged as a timestamp; the default that it stands for is not looked at. -/
  | timestampOfMapping
  /-- A node tagged as a number without any character of one. -/
  | emptyNumber
  /-- A floating point number in more parts than its place values allow. -/
  | tooManyParts
  /-- A mapping that stands for a default that leads back to it. -/
  | endless
  deriving DecidableEq, Repr

end GoApiDoc.Yaml
