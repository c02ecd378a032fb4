/-
This file writes values of any form, which documents carry as examples, defaults and the
like. Every value becomes plain data: times are written in their standard text, bytes as the
text they encode, what is no finite number as null, and keys of any type as names. Every value
lies one step below the value that holds it. A collection that holds itself has no end and is not
written.
-/

import GoApiDoc.Document.Codec

namespace GoApiDoc.Document

open Yaml Text Decimal

/-- A distance from universal time, with a letter for none. -/
def zoneText (offset : Int) : String :=
  if offset = 0 then "Z" else offsetText offset

/-- The text that bytes encode. -/
def bytesText (bytes : List UInt8) : Except EncodeFault String :=
  match Utf8.decode bytes with
  | .ok chars => .ok (String.ofList chars)
  | .error _ => .error .notUnicode

/-- A key as a name, its surrogates replaced. What is no finite number has the name of null. -/
def keyName : Value → Except EncodeFault String
  | .str value => .ok value.lossy
  | .null => .ok "None"
  | .bool value => .ok (if value then "true" else "false")
  | .int value => if hasText value then .ok (toString value) else .error .numberTooLong
  | .float value => .ok (if value.isFinite then value.text else "None")
  | .nan _ => .ok "None"
  | .bytes value => bytesText value
  | .date value => .ok value.text
  | .dateTime value => .ok (value.textWith zoneText)
  | _ => .ok ""

mutual

/-- A value as plain data, given the room for it. Keys that have the same name share one
place, and the last value stands there. A set becomes an array. It has no order of its own and may
be written in any; here it is written in the order of the text. -/
def plainData : Nat → Value → Except EncodeFault Json
  | _, .outer _ => .error .endless
  | 0, _ => .error .tooDeep
  | _ + 1, .null => .ok .null
  | _ + 1, .bool value => .ok (.bool value)
  | _ + 1, .int value => .ok (.int value)
  | _ + 1, .float value => .ok (if value.isFinite then .float value else .null)
  | _ + 1, .nan _ => .ok .null
  | _ + 1, .str value => .ok (.str value)
  | _ + 1, .bytes value => (bytesText value).map fun text => .str (.plain text)
  | _ + 1, .date value => .ok (.str (.plain value.text))
  | _ + 1, .dateTime value => .ok (.str (.plain (value.textWith zoneText)))
  | room + 1, .seq items => (plainItems room items).map .array
  | room + 1, .map entries =>
    (plainEntries room entries).map fun members => .object (Table.ofList members)
  | room + 1, .set items => (plainItems room items).map .array

/-- Values as plain data. -/
def plainItems : Nat → List Value → Except EncodeFault (List Json)
  | _, [] => .ok []
  | room, item :: rest => do return (← plainData room item) :: (← plainItems room rest)

/-- Entries as names with plain data. -/
def plainEntries : Nat → List (Value × Value) → Except EncodeFault (List (String × Json))
  | _, [] => .ok []
  | room, (key, value) :: rest => do
    return (← keyName key, ← plainData room value) :: (← plainEntries room rest)

end

/-- Values of any form. They are read as they are, however deep they are. -/
def Codec.anything (room : Nat) : Codec Value where
  decode value := .ok value
  encode := plainData room

end GoApiDoc.Document
