/-
This file holds tables: names with values, in the order in which the names first appeared. A
repeated name replaces the value and keeps its place. Names are texts unless said otherwise.
-/

import GoApiDoc.Text

namespace GoApiDoc

/-- Names with values, in order. -/
abbrev Table (α : Type) (κ : Type := Text) := List (κ × α)

namespace Table

variable {α κ : Type}

section

variable [DecidableEq κ]

/-- The value of a name. -/
def get? (name : κ) : Table α κ → Option α
  | [] => none
  | (other, value) :: rest => if other = name then some value else get? name rest

/-- The table with a value for a name: in the place of the name if it is there, else last. -/
def put (name : κ) (value : α) : Table α κ → Table α κ
  | [] => [(name, value)]
  | (other, old) :: rest =>
    if other = name then (other, value) :: rest else (other, old) :: put name value rest

/-- The table of names with values that may repeat a name. -/
def ofList (entries : List (κ × α)) : Table α κ :=
  entries.foldl (fun table entry => put entry.1 entry.2 table) []

end

/-- The names of a table. -/
def names (table : Table α κ) : List κ :=
  table.map Prod.fst

end Table

end GoApiDoc
