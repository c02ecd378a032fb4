/-
This file holds what every part of a document has in common: how it is read from a value and
how it is written as a tree. A codec is the pair of the two. Reading does not stop at the
first misfit: it reports all of them, each with the way to it, in the order of the fields.

A record is described once, field by field, and both directions come out of the description.
A field is found under its name, else under its alternative name. Misfits are located under
the name at which the field was found, and it is always written under its own name.

Parts lie within parts, and only so deep: the way down to a part takes steps, of which there
is a limited number. Codecs of parts that hold others are given the room, the number of steps
that are left for what lies below.
-/

import GoApiDoc.Json
import GoApiDoc.Yaml.Value
import GoApiDoc.Text.Utf8

namespace GoApiDoc.Document

open Yaml Text Decimal

/-! ### Misfits -/

/-- A step on the way to a misfit. -/
inductive Step
  | name (text : String)
  | index (number : Int)
  deriving DecidableEq, Repr

/-- In which way a value does not fit. -/
inductive Reason
  | notText
  | notUnicode
  | notBool
  | notBoolWord
  | notList
  | notTable
  | notRecord
  | missing
  | notLiteral
  | tooDeep
  deriving DecidableEq, Repr

/-- The reason in words. -/
def Reason.message : Reason → String
  | .notText => "should be text"
  | .notUnicode => "should be text that has an encoding"
  | .notBool => "should be a truth value"
  | .notBoolWord => "should be a word or number for a truth value"
  | .notList => "should be a list"
  | .notTable => "should be a mapping"
  | .notRecord => "should be a mapping of fields"
  | .missing => "is missing"
  | .notLiteral => "should be another word"
  | .tooDeep => "lies too deep"

/-- A misfit: the way to it and what it is. -/
structure Misfit where
  path : List Step
  reason : Reason
  deriving DecidableEq, Repr

/-- Why a value is not read as a part: everything that does not fit, or a number that is to
be text and has none. The latter ends the reading, whatever else does not fit. -/
inductive Refusal
  | misfits (found : List Misfit)
  | numberTooLong
  deriving DecidableEq, Repr

/-- The result of reading. -/
abbrev Decoded (α : Type) := Except Refusal α

/-- One misfit at the value itself. -/
def misfit {α : Type} (reason : Reason) : Decoded α :=
  .error (.misfits [⟨[], reason⟩])

/-- The misfit with a step in front of the way to it. -/
def Misfit.under (step : Step) (misfit : Misfit) : Misfit :=
  { misfit with path := step :: misfit.path }

namespace Refusal

/-- The refusal with a step in front of the way to each misfit. -/
def under (step : Step) : Refusal → Refusal
  | .misfits found => .misfits (found.map (Misfit.under step))
  | .numberTooLong => .numberTooLong

/-- Two refusals together: the misfits of both. -/
def and : Refusal → Refusal → Refusal
  | .misfits first, .misfits second => .misfits (first ++ second)
  | _, _ => .numberTooLong

end Refusal

/-- The result with a step in front of the way to each misfit. -/
def Decoded.under {α : Type} (step : Step) : Decoded α → Decoded α
  | .ok value => .ok value
  | .error refusal => .error (refusal.under step)

/-- Both results, or the refusals of both. -/
def Decoded.both {α β : Type} : Decoded α → Decoded β → Decoded (α × β)
  | .ok first, .ok second => .ok (first, second)
  | .error first, .ok _ => .error first
  | .ok _, .error second => .error second
  | .error first, .error second => .error (first.and second)

/-- All results of a list, or all their refusals. -/
def Decoded.all {α : Type} : List (Decoded α) → Decoded (List α)
  | [] => .ok []
  | first :: rest => (first.both (all rest)).map fun (value, values) => value :: values

/-! ### Writing -/

/-- Why a part cannot be written. -/
inductive EncodeFault
  /-- Bytes that are to be written as text are no UTF-8. -/
  | notUnicode
  /-- There is no room left for a part. -/
  | tooDeep
  /-- A collection holds itself. -/
  | endless
  /-- A number has no decimal text. -/
  | numberTooLong
  deriving DecidableEq, Repr

/-! ### Codecs -/

/-- How a part is read from a value and written as a tree. -/
structure Codec (α : Type) where
  decode : Value → Decoded α
  encode : α → Except EncodeFault Json

/-! ### Room -/

/-- The number of steps that may lead down to a part. -/
def stepLimit : Nat := 255

/-- The codec of a part for which there is no room. -/
def Codec.full {α : Type} : Codec α where
  decode _ := misfit .tooDeep
  encode _ := .error .tooDeep

/-- The codec of a part to which the given number of steps lead: it has the room that they
leave. Its own codec is looked at only when a part is there. -/
def Codec.after {α : Type} (steps room : Nat) (codec : Nat → Codec α) : Codec α where
  decode value :=
    if steps ≤ room then (codec (room - steps)).decode value else misfit .tooDeep
  encode part :=
    if steps ≤ room then (codec (room - steps)).encode part else .error .tooDeep

/-- The codec of a part to which one step leads, and which holds no others. -/
def Codec.inner {α : Type} (room : Nat) (codec : Codec α) : Codec α :=
  Codec.after 1 room fun _ => codec

/-- A codec that is looked at only when a part is there. -/
def Codec.later {α : Type} (codec : Unit → Codec α) : Codec α where
  decode value := (codec ()).decode value
  encode part := (codec ()).encode part

/-! ### Plain parts -/

/-- The text of a number where text is wanted; `none` for what is no number. -/
def numberText : Value → Option (Decoded Text)
  | .int value =>
    some (if hasText value then .ok (.plain (toString value)) else .error .numberTooLong)
  | .float value => some (.ok (.plain value.text))
  | .nan _ => some (.ok (.plain Double.nan.text))
  | _ => none

/-- Text: strings, and bytes that are UTF-8. -/
def Codec.plainText : Codec Text where
  decode
    | .str value => .ok value
    | .bytes value =>
      match Utf8.decode value with
      | .ok chars => .ok (.plain (String.ofList chars))
      | .error _ => misfit .notUnicode
    | _ => misfit .notText
  encode value := .ok (.str value)

/-- Text, where a number stands for its digits. -/
def Codec.text : Codec Text where
  decode value :=
    match numberText value with
    | some digits => digits
    | none => Codec.plainText.decode value
  encode value := .ok (.str value)

/-- A truth value by its word, in any case of letters. -/
def boolOfWord (word : String) : Option Bool :=
  let word := String.ofList (word.toList.map Char.toLower)
  if ["1", "on", "t", "true", "y", "yes"].contains word then some true
  else if ["0", "off", "f", "false", "n", "no"].contains word then some false
  else none

/-- A truth value by its number; only one and zero are truth values. -/
def boolOfNumber (number : Int) : Decoded Bool :=
  if number = 0 then .ok false else if number = 1 then .ok true else misfit .notBoolWord

/-- A whole number of 64 bits. -/
def fitsWord (number : Int) : Bool :=
  -9223372036854775808 ≤ number && number ≤ 9223372036854775807

/-- A whole number of 64 bits that is not the least one. A floating point number stands for no
other. -/
def insideWord (number : Int) : Bool :=
  -9223372036854775808 < number && number < 9223372036854775808

/-- Truth values, their words and their numbers. -/
def Codec.bool : Codec Bool where
  decode
    | .bool value => .ok value
    | .str (.plain value) =>
      match boolOfWord value with
      | some value => .ok value
      | none => misfit .notBoolWord
    | .str (.broken _ _) => misfit .notUnicode
    | .bytes value =>
      match (Utf8.decode value).toOption.bind fun chars => boolOfWord (String.ofList chars) with
      | some value => .ok value
      | none => misfit .notBoolWord
    | .int value => if fitsWord value then boolOfNumber value else misfit .notBool
    | .float value =>
      match value.toInt? with
      | some number => if insideWord number then boolOfNumber number else misfit .notBool
      | none => misfit .notBool
    | _ => misfit .notBool
  encode value := .ok (.bool value)

/-- One fixed word. -/
def Codec.literal (word : String) : Codec Unit where
  decode
    | .str (.plain value) => if value = word then .ok () else misfit .notLiteral
    | .str (.broken _ _) => misfit .notUnicode
    | _ => misfit .notLiteral
  encode _ := .ok (.str (.plain word))

/-- Lists; a set is read as the list of its items, in the order of the text. -/
def Codec.list {α : Type} (item : Codec α) : Codec (List α) where
  decode value :=
    match value.items? with
    | some values =>
      Decoded.all (values.mapIdx fun index value => (item.decode value).under (.index index))
    | none => misfit .notList
  encode values := do
    return .array (← values.mapM item.encode)

/-! ### Keys of tables -/

/-- The bytes as they are shown among the steps to a misfit. -/
def bytesShown (bytes : List UInt8) : String :=
  let quote := if bytes.contains 0x27 && !bytes.contains 0x22 then '"' else '\''
  let shown := bytes.flatMap fun byte =>
    let char := Char.ofNat byte.toNat
    if char == quote || char == '\\' then ['\\', char]
    else if char == '\n' then ['\\', 'n']
    else if char == '\r' then ['\\', 'r']
    else if char == '\t' then ['\\', 't']
    else if 0x20 ≤ byte && byte < 0x7F then [char]
    else '\\' :: 'x' :: hexDigits 2 byte.toNat
  String.ofList ('b' :: quote :: shown ++ [quote])

/-- The parts of a date as they are shown among the steps to a misfit. -/
def dateShown (date : Date) : String :=
  toString date.year ++ ", " ++ toString date.month ++ ", " ++ toString date.day

/-- The offset of a time as it is shown among the steps to a misfit. -/
def offsetShown (offset : Int) : String :=
  let span :=
    if offset < 0 then
      "days=-1, seconds=" ++ toString (86400 + offset * 60)
    else "seconds=" ++ toString (offset * 60)
  if offset = 0 then "datetime.timezone.utc"
  else "datetime.timezone(datetime.timedelta(" ++ span ++ "))"

/-- A time as it is shown among the steps to a misfit; trailing zeros are left out. -/
def timeShown (time : DateTime) : String :=
  "datetime.datetime(" ++ dateShown time.date ++ ", " ++ toString time.hour ++ ", " ++
    toString time.minute ++
    (if time.second = 0 ∧ time.microsecond = 0 then "" else ", " ++ toString time.second) ++
    (if time.microsecond = 0 then "" else ", " ++ toString time.microsecond) ++
    ((time.offset.map fun offset => ", tzinfo=" ++ offsetShown offset).getD "") ++ ")"

/-- The step into a table by a key: a string by itself, a whole number by its number, any
other key as it is shown. -/
def keyStep : Value → Step
  | .str text => .name text.lossy
  | .int number =>
    if fitsWord number then .index number
    else .name (if hasText number then toString number else "<unprintable int object>")
  | .bool value => .index (if value then 1 else 0)
  | .null => .name "None"
  | .float value => .name value.text
  | .nan _ => .name Double.nan.text
  | .bytes value => .name (bytesShown value)
  | .date value => .name ("datetime.date(" ++ dateShown value ++ ")")
  | .dateTime value => .name (timeShown value)
  | _ => .name ""

/-- One entry of a table: a misfit of the key stands before those of the value. -/
def decodeEntry {α : Type} (key : Codec Text) (item : Codec α) (entry : Value × Value) :
    Decoded (Text × α) :=
  let step := keyStep entry.1
  (((key.decode entry.1).under (.name "[key]")).under step).both ((item.decode entry.2).under step)

/-- Tables whose names are read by the given codec. They are written with the surrogates in their
names replaced; names that become the same share one place, and the last value stands there. -/
def Codec.tableBy {α : Type} (key : Codec Text) (item : Codec α) : Codec (Table α) where
  decode value :=
    match value.entries? with
    | some entries => (Decoded.all (entries.map (decodeEntry key item))).map Table.ofList
    | none => misfit .notTable
  encode table := do
    let members ← table.mapM fun entry => do return (entry.1.lossy, ← item.encode entry.2)
    return .object (Table.ofList members)

/-- Tables; a number stands for a name of its digits. -/
def Codec.table {α : Type} (item : Codec α) : Codec (Table α) :=
  Codec.tableBy Codec.text item

/-! ### Fields -/

/-- The name of a field, and the name under which it is looked up when the first is absent. -/
structure Key where
  name : String
  alternative : String := name

instance : Coe String Key := ⟨fun name => { name }⟩

/-- The value of a field among the entries of a record, with the name it was found under. -/
def Key.find? (key : Key) (entries : List (Value × Value)) : Option (String × Value) :=
  match Value.get? key.name entries with
  | some value => some (key.name, value)
  | none => (Value.get? key.alternative entries).map fun value => (key.alternative, value)

/-- Some fields of a record `ρ`, read as an `α`. -/
structure Fields (ρ α : Type) where
  decode : List (Value × Value) → Decoded α
  encode : ρ → Except EncodeFault (List (String × Json))

namespace Fields

variable {ρ α β : Type}

/-- Two lots of fields, one after the other. -/
def seq (first : Fields ρ (α → β)) (second : Fields ρ α) : Fields ρ β where
  decode entries :=
    ((first.decode entries).both (second.decode entries)).map fun (build, value) => build value
  encode record := do
    return (← first.encode record) ++ (← second.encode record)

instance : Functor (Fields ρ) where
  map build fields := ⟨fun entries => (fields.decode entries).map build, fields.encode⟩

instance : Seq (Fields ρ) where
  seq first second := first.seq (second ())

/-- A field that may be absent or null, and is then left out. -/
def optional (key : Key) (codec : Codec α) (get : ρ → Option α) : Fields ρ (Option α) where
  decode entries :=
    match key.find? entries with
    | none => .ok none
    | some (_, .null) => .ok none
    | some (name, value) => ((codec.decode value).under (.name name)).map some
  encode record :=
    match get record with
    | none => .ok []
    | some value => do return [(key.name, ← codec.encode value)]

/-- A field with a value of its own where it is absent. -/
def defaulted (key : Key) (codec : Codec α) (value : α) (get : ρ → α) : Fields ρ α where
  decode entries :=
    match key.find? entries with
    | none => .ok value
    | some (name, value) => (codec.decode value).under (.name name)
  encode record := do return [(key.name, ← codec.encode (get record))]

/-- A field that has to be there. -/
def required (key : Key) (codec : Codec α) (get : ρ → α) : Fields ρ α where
  decode entries :=
    match key.find? entries with
    | none => Decoded.under (.name key.name) (misfit .missing)
    | some (name, value) => (codec.decode value).under (.name name)
  encode record := do return [(key.name, ← codec.encode (get record))]

/-- The fields of a part of the record. -/
def part {σ : Type} (fields : Fields σ α) (get : ρ → σ) : Fields ρ α :=
  ⟨fields.decode, fun record => fields.encode (get record)⟩

end Fields

/-- A record of the given fields; entries that are no field are passed over. -/
def Codec.record {α : Type} (fields : Fields α α) : Codec α where
  decode value :=
    match value.entries? with
    | some entries => fields.decode entries
    | none => misfit .notRecord
  encode value := do
    return .object (← fields.encode value)

end GoApiDoc.Document
