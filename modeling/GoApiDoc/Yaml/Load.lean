/-
This file reads a YAML text as a value. Values come about level by level: asking for a scalar
gives its value at once, asking for a collection only puts it in line, and the collections in
line are filled one after the other. So of several faults the one at the least depth is
reported, and of those the first.

A mapping takes the entries that its merge keys name in front of its own when it is filled,
and so does every mapping that is named there. This changes the nodes for whoever comes to
them later by an alias: a merged mapping has the entries that it took, and its merge keys are
gone. A node that has its value already keeps it. A mapping may be named by its own merge keys, from
near or far; each key is gone before the mapping it names is looked at.
-/

import GoApiDoc.Yaml.Content
import GoApiDoc.Yaml.Node

namespace GoApiDoc.Yaml

/-! ### Nodes by their numbers -/

/-- Whether a tag makes its node a collection, which is no key. -/
def Tag.isCollection : Tag → Bool
  | .seq | .map | .set | .omap | .pairs => true
  | _ => false

/-- Whether the node of a number has a tag. -/
def hasTag (nodes : Array Node) (tag : Tag) (number : Nat) : Bool :=
  match nodes[number]? with
  | some node => node.tag == tag
  | none => false

/-- The entries of the node of a number, which has to be a mapping. -/
def entriesAt (nodes : Array Node) (number : Nat) : Except Fault (List (Nat × Nat)) :=
  match nodes[number]? with
  | some (.mapping _ entries) => .ok entries
  | _ => .error .malformed

/-- The items of the node of a number, which has to be a sequence. -/
def itemsAt (nodes : Array Node) (number : Nat) : Except Fault (List Nat) :=
  match nodes[number]? with
  | some (.sequence _ items) => .ok items
  | _ => .error .malformed

/-- The nodes with a string in place of the mark for a default, which is no more than that
where it is a key. -/
def withoutDefault (nodes : Array Node) (number : Nat) : Array Node :=
  match nodes[number]? with
  | some (.scalar .default text) => nodes.setIfInBounds number (.scalar .str text)
  | some (.sequence .default items) => nodes.setIfInBounds number (.sequence .str items)
  | some (.mapping .default entries) => nodes.setIfInBounds number (.mapping .str entries)
  | _ => nodes

/-! ### Merging -/

/-- The entries that merge keys brought, and the nodes. -/
structure Merging where
  brought : List (Nat × Nat) := []
  nodes : Array Node

/-- How the entries of a mapping are found, and the nodes after that. -/
abbrev Bring := Array Node → Nat → Except Fault (List (Nat × Nat) × Array Node)

/-- The entries of the mappings in a sequence, the last mapping first. -/
def bringItems (bring : Bring) (nodes : Array Node) :
    List Nat → Except Fault (List (Nat × Nat) × Array Node)
  | [] => .ok ([], nodes)
  | item :: rest => do
    let (brought, nodes) ← bring nodes item
    let (others, nodes) ← bringItems bring nodes rest
    return (others ++ brought, nodes)

/-- The nodes without an entry of the mapping of a number, if it has the entry. -/
def withoutEntry (nodes : Array Node) (number : Nat) (entry : Nat × Nat) : Option (Array Node) :=
  match nodes[number]? with
  | some (.mapping tag entries) =>
    if entries.contains entry then
      some (nodes.setIfInBounds number (.mapping tag (entries.erase entry)))
    else none
  | _ => none

/-- Goes over one more entry of the mapping of a number: a merge key is taken out and brings the
entries of the mapping it names, or of the mappings in the sequence it names. It is gone already if
one of these led back to this mapping. -/
def mergeEntry (bring : Bring) (number : Nat) (merging : Merging) (entry : Nat × Nat) :
    Except Fault Merging := do
  if hasTag merging.nodes .merge entry.1 then
    match withoutEntry merging.nodes number entry with
    | none => return merging
    | some nodes =>
      let (brought, nodes) ←
        match nodes[entry.2]? with
        | some (.sequence _ items) => bringItems bring nodes items
        | _ => bring nodes entry.2
      return { brought := merging.brought ++ brought, nodes }
  else return { merging with nodes := withoutDefault merging.nodes entry.1 }

/-- Takes the entries that merge keys name into a mapping, in front of its own entries. A
mapping that is named there is treated alike before. `steps` bounds how many mappings lie
between. -/
def merge : Nat → Array Node → Nat → Except Fault (Array Node)
  | 0, _, _ => .error .malformed
  | steps + 1, nodes, number => do
    let bring : Bring := fun nodes number => do
      let nodes ← merge steps nodes number
      return (← entriesAt nodes number, nodes)
    let merged ← (← entriesAt nodes number).foldlM (mergeEntry bring number) { nodes }
    match merged.nodes[number]? with
    | some (.mapping tag own) =>
      return merged.nodes.setIfInBounds number (.mapping tag (merged.brought ++ own))
    | _ => throw .malformed

/-- The number of entries of a mapping; other nodes have none. -/
def Node.entryCount : Node → Nat
  | .mapping _ entries => entries.length
  | _ => 0

/-- The number of entries of all mappings. A mapping that lies between two in merging has lost a
merge key of its own by then, so there are fewer of them than that. -/
def entryCount (nodes : Array Node) : Nat :=
  nodes.foldl (fun count node => count + node.entryCount) 0

/-! ### Values -/

/-- What a node has come to: a value, a collection in line, or a collection that is filled.
The parts of a collection are given by their numbers; keys have their values at once. -/
inductive Cell
  | value (value : Value)
  | inLine
  | seq (items : List Nat)
  | pairs (entries : List (Nat × Nat))
  | map (entries : List (Value × Nat))
  | set (items : List Value)

/-- The nodes, what they have come to so far, and the collections in line, the last first. -/
structure Loading where
  nodes : Array Node
  cells : Array (Option Cell)
  waiting : List Nat := []

namespace Loading

/-- What a node has come to, if it was asked for. -/
def cell? (loading : Loading) (number : Nat) : Option Cell :=
  (loading.cells[number]?).join

/-- The state in which a node has come to something. -/
def put (loading : Loading) (number : Nat) (cell : Cell) : Loading :=
  { loading with cells := loading.cells.setIfInBounds number (some cell) }

end Loading

/-- The text of a scalar, or of the default that a mapping stands for, which may again be a
mapping. More steps than there are nodes lead in a circle. -/
def scalarText (nodes : Array Node) : Nat → Nat → Except Fault Text
  | 0, _ => .error .endless
  | steps + 1, number =>
    match nodes[number]? with
    | some (.scalar _ text) => .ok text
    | some (.mapping _ entries) =>
      match entries.find? fun entry => hasTag nodes .default entry.1 with
      | some (_, value) => scalarText nodes steps value
      | none => .error .malformed
    | _ => .error .malformed

/-- The value of a node that is no collection. -/
def valueOf (nodes : Array Node) (number : Nat) (node : Node) : Except Fault Value := do
  let text ← scalarText nodes (nodes.size + 1) number
  match node with
  | .mapping .timestamp _ => throw .timestampOfMapping
  | _ => scalarValue number node.tag text

/-- Asks for a node. -/
def ask (loading : Loading) (number : Nat) : Except Fault Loading :=
  match loading.cell? number, loading.nodes[number]? with
  | some _, _ => .ok loading
  | none, none => .error .malformed
  | none, some node =>
    if node.tag.isCollection then
      .ok { loading.put number .inLine with waiting := number :: loading.waiting }
    else do return loading.put number (.value (← valueOf loading.nodes number node))

/-- Asks for keys and values in turn; a key must not be a collection. -/
def askEntries (loading : Loading) (found : List (Value × Nat)) :
    List (Nat × Nat) → Except Fault (Loading × List (Value × Nat))
  | [] => .ok (loading, found)
  | (key, value) :: rest => do
    let loading ← ask loading key
    match loading.cell? key with
    | some (.value name) =>
      askEntries (← ask loading value) (Value.putEntry name value found) rest
    | _ => throw .malformed

/-- Asks for the items of a list of pairs, each a mapping of one entry. -/
def askPairs (loading : Loading) :
    List Nat → Except Fault (Loading × List (Nat × Nat))
  | [] => .ok (loading, [])
  | item :: rest => do
    match ← entriesAt loading.nodes item with
    | [(key, value)] =>
      let loading ← ask (← ask loading key) value
      let (loading, others) ← askPairs loading rest
      return (loading, (key, value) :: others)
    | _ => throw .malformed

/-- The entries of a mapping that is filled. -/
def fillEntries (loading : Loading) (number : Nat) :
    Except Fault (Loading × List (Value × Nat)) := do
  let nodes ← merge (entryCount loading.nodes + 1) loading.nodes number
  askEntries { loading with nodes } [] (← entriesAt nodes number)

/-- Fills a collection, as its tag says. -/
def fill (loading : Loading) (number : Nat) : Except Fault Loading := do
  match (loading.nodes[number]?).map Node.tag with
  | some .map =>
    let (loading, entries) ← fillEntries loading number
    return loading.put number (.map entries)
  | some .set =>
    let (loading, entries) ← fillEntries loading number
    return loading.put number (.set (entries.map Prod.fst))
  | some .seq =>
    let items ← itemsAt loading.nodes number
    let loading ← items.foldlM ask loading
    return loading.put number (.seq items)
  | _ =>
    let (loading, entries) ← askPairs loading (← itemsAt loading.nodes number)
    return loading.put number (.pairs entries)

/-- Fills the collections in line, and those that come into line meanwhile, for as many levels
as given. -/
def fillLevels : Nat → Loading → Except Fault Loading
  | 0, loading => .ok loading
  | levels + 1, loading =>
    if loading.waiting.isEmpty then .ok loading
    else do
      fillLevels levels
        (← loading.waiting.reverse.foldlM fill { loading with waiting := [] })

/-- The value that a node has come to, down to the given number of levels. `around` are the
collections around it, the nearest first; one that is no node has no number. -/
def Loading.valueAt (loading : Loading) : Nat → List (Option Nat) → Nat → Value
  | 0, _, _ => .null
  | levels + 1, around, number =>
    match around.idxOf? (some number), loading.cell? number with
    | some height, _ => .outer height
    | none, some (.value value) => value
    | none, some (.seq items) => .seq (items.map (valueAt loading levels (some number :: around)))
    | none, some (.pairs entries) =>
      let part := valueAt loading levels (none :: some number :: around)
      .seq (entries.map fun entry => .seq [part entry.1, part entry.2])
    | none, some (.map entries) =>
      .map (entries.map fun entry =>
        (entry.1, valueAt loading levels (some number :: around) entry.2))
    | none, some (.set items) => .set items
    | none, some .inLine => .null
    | none, none => .null

/-- The value of a text; a text without a document is null. No more collections lie within one
another than there are nodes, and one more level finds those that stand in themselves. -/
def load (text : String) : Except Fault Value := do
  match ← graphOf text.toList with
  | none => return .null
  | some reading =>
    let nodes := reading.graph.nodes
    let start : Loading := { nodes, cells := Array.replicate nodes.size none }
    let loading ← fillLevels nodes.size (← ask start reading.value)
    return loading.valueAt (nodes.size + 1) [] reading.value

end GoApiDoc.Yaml
