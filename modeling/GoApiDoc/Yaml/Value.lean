/-
This file holds the values that YAML texts denote, and when two of them are the same key of a
mapping: numbers by their value, whatever their type, truth values counting as one and zero,
and times by the moment. What is no number has no value to go by, so its node tells which key
it is. A mapping keeps its entries in the order of their first appearance; a repeated key
replaces the value and keeps the place and the first spelling of the key.

A collection may hold itself. Where it does, its value says how far out the collection is that
stands there, and opening a collection puts it there: so what a collection holds can be looked at
one level after the other, without end.
-/

import GoApiDoc.Yaml.Calendar
import GoApiDoc.Decimal.Whole
import GoApiDoc.Text

namespace GoApiDoc.Yaml

open Decimal

/-- A value. The items of a set are the keys of a mapping, in their order. What is no number
carries the node it was computed from; the word for it has none, and is the same everywhere. The
outer collection of height zero is the nearest one around. -/
inductive Value
  | null
  | bool (value : Bool)
  | int (value : Int)
  | float (value : Double)
  | nan (node : Option Nat)
  | str (value : Text)
  | bytes (value : List UInt8)
  | date (value : Date)
  | dateTime (value : DateTime)
  | seq (items : List Value)
  | map (entries : List (Value × Value))
  | set (items : List Value)
  | outer (height : Nat)
  deriving Repr

namespace Value

/-- The whole number that a value equals, if it equals one. -/
def wholeNumber? : Value → Option Int
  | .bool value => some (if value then 1 else 0)
  | .int value => some value
  | .float value => value.toInt?
  | _ => none

/-- Whether two values are the same key. Collections are no keys. -/
def sameKey (first second : Value) : Bool :=
  match first.wholeNumber?, second.wholeNumber? with
  | some first, some second => first == second
  | _, _ =>
    match first, second with
    | .null, .null => true
    | .float first, .float second => first.same second
    | .nan first, .nan second => first == second
    | .str first, .str second => first == second
    | .bytes first, .bytes second => first == second
    | .date first, .date second => first == second
    | .dateTime first, .dateTime second => first.same second
    | _, _ => false

/-- The entries with one more, or with its value in place of that of the same key. -/
def putEntry {α : Type} (key : Value) (value : α) : List (Value × α) → List (Value × α)
  | [] => [(key, value)]
  | (otherKey, otherValue) :: rest =>
    if otherKey.sameKey key then (otherKey, value) :: rest
    else (otherKey, otherValue) :: putEntry key value rest

/-- The entries of a mapping that pairs of keys and values make up, in their order. -/
def entriesOf (pairs : List (Value × Value)) : List (Value × Value) :=
  pairs.foldl (fun entries pair => putEntry pair.1 pair.2 entries) []

/-- The value under a string key. -/
def get? (name : String) : List (Value × Value) → Option Value
  | [] => none
  | (.str key, value) :: rest => if key = .plain name then some value else get? name rest
  | _ :: rest => get? name rest

mutual

/-- Whether every whole number in a value, the keys included, has a decimal text. -/
def allText : Value → Bool
  | .int value => hasText value
  | .seq items => allTextItems items
  | .map entries => allTextEntries entries
  | .set items => allTextItems items
  | _ => true

/-- Whether every whole number in values has a decimal text. -/
def allTextItems : List Value → Bool
  | [] => true
  | item :: rest => allText item && allTextItems rest

/-- Whether every whole number in keys and values has a decimal text. -/
def allTextEntries : List (Value × Value) → Bool
  | [] => true
  | (key, value) :: rest => allText key && allText value && allTextEntries rest

end

/-! ### Opening collections -/

mutual

/-- A value with another in place of the outer collection of a height. -/
def withOuter (whole : Value) (height : Nat) : Value → Value
  | .outer other => if other = height then whole else .outer other
  | .seq items => .seq (withOuterItems whole (height + 1) items)
  | .map entries => .map (withOuterEntries whole (height + 1) entries)
  | value => value

/-- Values with another in place of the outer collection of a height. -/
def withOuterItems (whole : Value) (height : Nat) : List Value → List Value
  | [] => []
  | item :: rest => withOuter whole height item :: withOuterItems whole height rest

/-- Entries with a value in place of the outer collection of a height. Keys hold no collection. -/
def withOuterEntries (whole : Value) (height : Nat) :
    List (Value × Value) → List (Value × Value)
  | [] => []
  | (key, value) :: rest =>
    (key, withOuter whole height value) :: withOuterEntries whole height rest

end

/-- The items of a sequence or set. -/
def items? : Value → Option (List Value)
  | .seq items => some (withOuterItems (.seq items) 0 items)
  | .set items => some items
  | _ => none

/-- The entries of a mapping. -/
def entries? : Value → Option (List (Value × Value))
  | .map entries => some (withOuterEntries (.map entries) 0 entries)
  | _ => none

/-- Whether the value is null. -/
def isNull : Value → Bool
  | .null => true
  | _ => false

end Value

end GoApiDoc.Yaml
