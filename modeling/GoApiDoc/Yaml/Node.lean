/-
This file reads tokens as a graph of nodes. Nodes are numbered as they begin, and a collection
holds the numbers of its parts: an alias is the number of the anchored node, which is one node
wherever it is named. It can be named within itself, so a collection may be a part of its parts.
The tag of every node is settled, from its own tag, from the form of a plain scalar, or from the
kind of the node.

A production looks at the tokens from where it starts and returns what it read with the
number of tokens it used. It asks for a token only when it needs it: past the last token that
was handed on, reading ends with the fault of the text.
-/

import GoApiDoc.Yaml.Tag
import GoApiDoc.Yaml.Tokens

namespace GoApiDoc.Yaml

/-- A node with its tag; the parts of a collection are given by their numbers. -/
inductive Node
  | scalar (tag : Tag) (text : Text)
  | sequence (tag : Tag) (items : List Nat)
  | mapping (tag : Tag) (entries : List (Nat × Nat))
  deriving Repr

/-- The tag of a node. -/
def Node.tag : Node → Tag
  | .scalar tag _ => tag
  | .sequence tag _ => tag
  | .mapping tag _ => tag

/-- What has been read so far: the nodes by their numbers, and the numbers of anchors. A node that
is still being read has its number already. -/
structure Graph where
  nodes : Array Node := #[]
  anchors : List (String × Nat) := []
  deriving Repr

/-! ### Surroundings -/

/-- What productions need to know: the tag handles of the document and the fault that lies
behind the tokens. -/
structure Surroundings where
  handles : List (String × String)
  ending : Fault

/-- What a production returns: the value, the tokens it used, and the graph after it. -/
structure Reading (α : Type) where
  value : α
  used : Nat
  graph : Graph

/-- The tag handles that need no directive. -/
def standardHandles : List (String × String) :=
  [("!", "!"), ("!!", "tag:yaml.org,2002:")]

/-! ### Properties of nodes -/

/-- The anchor and the tag in front of a node, in either order. -/
structure Properties where
  anchor : Option String
  tag : Option (Option String × String)
  used : Nat

/-- Reads the properties in front of a node. -/
def properties (ending : Fault) : List Token → Except Fault Properties
  | .anchor name :: rest =>
    match rest with
    | [] => .error ending
    | .tag handle suffix :: _ => .ok ⟨some name, some (handle, suffix), 2⟩
    | _ => .ok ⟨some name, none, 1⟩
  | .tag handle suffix :: rest =>
    match rest with
    | [] => .error ending
    | .anchor name :: _ => .ok ⟨some name, some (handle, suffix), 2⟩
    | _ => .ok ⟨none, some (handle, suffix), 1⟩
  | _ => .ok ⟨none, none, 0⟩

/-- The full name of a tag; its handle must be known. -/
def tagName (handles : List (String × String)) :
    Option (Option String × String) → Except Fault (Option String)
  | none => .ok none
  | some (none, suffix) => .ok (some suffix)
  | some (some handle, suffix) =>
    match handles.lookup handle with
    | some start => .ok (some (start ++ suffix))
    | none => .error .malformed

/-- The tag of a scalar: a plain scalar without a tag, and any scalar with the tag that asks
for it, goes by its form; an enclosed scalar is a string. No form has a surrogate, and none has what
replaces it. -/
def scalarTag (name : Option String) (text : Text) (plain : Bool) : Tag :=
  match name with
  | none => if plain then .ofPlain text.lossy else .str
  | some "!" => .ofPlain text.lossy
  | some name => .ofName name

/-- The tag of a collection, which is its own or the one of its kind. -/
def collectionTag (name : Option String) (kind : Tag) : Tag :=
  match name with
  | none => kind
  | some "!" => kind
  | some name => .ofName name

/-- The reading of a node that is put into the graph as the next one. -/
def Graph.read (graph : Graph) (node : Node) (used : Nat) : Reading Nat :=
  ⟨graph.nodes.size, used, { graph with nodes := graph.nodes.push node }⟩

/-- The reading of the node that stands where nothing is written. -/
def Graph.readNothing (graph : Graph) : Reading Nat :=
  graph.read (.scalar (scalarTag none (.plain "") true) (.plain "")) 0

/-- The graph with a place for a node that is going to be read, and with its anchor, which may
be given once. -/
def Graph.reserve (graph : Graph) (anchor : Option String) : Except Fault Graph :=
  let nodes := graph.nodes.push (.scalar .null (.plain ""))
  match anchor with
  | none => .ok { graph with nodes }
  | some name =>
    if (graph.anchors.lookup name).isSome then .error .malformed
    else .ok { nodes, anchors := (name, graph.nodes.size) :: graph.anchors }

/-- The graph with a node in its place. -/
def Graph.settle (graph : Graph) (number : Nat) (node : Node) : Graph :=
  { graph with nodes := graph.nodes.setIfInBounds number node }

/-! ### Productions -/

/-- The name of the alias that comes next, if one does. -/
def aliasName? : List Token → Option String
  | .alias name :: _ => some name
  | _ => none

mutual

/-- Reads a node. Block collections are allowed only where `block` is set, and a sequence
without indentation only where `indentless` is. A node with properties may be empty. -/
def readNode (around : Surroundings) (graph : Graph) (block indentless : Bool)
    (tokens : List Token) : Except Fault (Reading Nat) := do
  match aliasName? tokens with
  | some name =>
    match graph.anchors.lookup name with
    | some number => return ⟨number, 1, graph⟩
    | none => throw .malformed
  | none =>
    let found ← properties around.ending tokens
    let name ← tagName around.handles found.tag
    let number := graph.nodes.size
    let finish (graph : Graph) (node : Node) (used : Nat) : Reading Nat :=
      ⟨number, found.used + used, graph.settle number node⟩
    match _content : tokens.drop found.used with
    | [] => throw around.ending
    | token :: rest =>
      let reserved := graph.reserve found.anchor
      match token, block, indentless with
      | .scalar text plain, _, _ =>
        return finish (← reserved) (.scalar (scalarTag name text plain) text) 1
      | .flowSequenceStart, _, _ =>
        let items ← readFlowItems around (← reserved) true rest
        return finish items.graph (.sequence (collectionTag name .seq) items.value)
          (items.used + 1)
      | .flowMappingStart, _, _ =>
        let entries ← readFlowEntries around (← reserved) true rest
        return finish entries.graph (.mapping (collectionTag name .map) entries.value)
          (entries.used + 1)
      | .blockEntry, _, true =>
        let items ← readIndentless around (← reserved) (token :: rest)
        return finish items.graph (.sequence (collectionTag name .seq) items.value) items.used
      | .blockSequenceStart, true, _ =>
        let items ← readBlockItems around (← reserved) rest
        return finish items.graph (.sequence (collectionTag name .seq) items.value)
          (items.used + 1)
      | .blockMappingStart, true, _ =>
        let entries ← readBlockEntries around (← reserved) rest
        return finish entries.graph (.mapping (collectionTag name .map) entries.value)
          (entries.used + 1)
      | _, _, _ =>
        if found.used = 0 then throw .malformed
        else
          return finish (← reserved) (.scalar (scalarTag name (.plain "") true) (.plain "")) 0
termination_by tokens.length * 4 + 1
decreasing_by
  all_goals
    have lengths := congrArg List.length _content
    simp only [List.length_drop, List.length_cons] at lengths ⊢
    omega

/-- Reads the items of a block sequence up to and with its end. -/
def readBlockItems (around : Surroundings) (graph : Graph) (tokens : List Token) :
    Except Fault (Reading (List Nat)) := do
  match tokens with
  | [] => throw around.ending
  | .blockEnd :: _ => return ⟨[], 1, graph⟩
  | .blockEntry :: rest =>
    match rest.head? with
    | none => throw around.ending
    | some .blockEntry | some .blockEnd =>
      let nothing := graph.readNothing
      let others ← readBlockItems around nothing.graph rest
      return ⟨nothing.value :: others.value, others.used + 1, others.graph⟩
    | _ =>
      let item ← readNode around graph true false rest
      let others ← readBlockItems around item.graph (rest.drop item.used)
      return ⟨item.value :: others.value, 1 + item.used + others.used, others.graph⟩
  | _ => throw .malformed
termination_by tokens.length * 4
decreasing_by all_goals (simp only [List.length_drop, List.length_cons]; omega)

/-- Reads the items of a sequence that is not indented; it ends where no item follows. -/
def readIndentless (around : Surroundings) (graph : Graph) (tokens : List Token) :
    Except Fault (Reading (List Nat)) := do
  match tokens with
  | [] => throw around.ending
  | .blockEntry :: rest =>
    match rest.head? with
    | none => throw around.ending
    | some .blockEntry | some .key | some .value | some .blockEnd =>
      let nothing := graph.readNothing
      let others ← readIndentless around nothing.graph rest
      return ⟨nothing.value :: others.value, others.used + 1, others.graph⟩
    | _ =>
      let item ← readNode around graph true false rest
      let others ← readIndentless around item.graph (rest.drop item.used)
      return ⟨item.value :: others.value, 1 + item.used + others.used, others.graph⟩
  | _ => return ⟨[], 0, graph⟩
termination_by tokens.length * 4
decreasing_by all_goals (simp only [List.length_drop, List.length_cons]; omega)

/-- Reads the key or value behind its mark in a block mapping. -/
def readBlockPart (around : Surroundings) (graph : Graph) (tokens : List Token) :
    Except Fault (Reading Nat) := do
  match tokens.head? with
  | none => throw around.ending
  | some .key | some .value | some .blockEnd => return graph.readNothing
  | some _ => readNode around graph true true tokens
termination_by tokens.length * 4 + 2
decreasing_by all_goals omega

/-- Reads the entries of a block mapping up to and with its end. -/
def readBlockEntries (around : Surroundings) (graph : Graph) (tokens : List Token) :
    Except Fault (Reading (List (Nat × Nat))) := do
  match tokens with
  | [] => throw around.ending
  | .blockEnd :: _ => return ⟨[], 1, graph⟩
  | .key :: rest =>
    let key ← readBlockPart around graph rest
    match _after : rest.drop key.used with
    | [] => throw around.ending
    | .value :: behind =>
      let value ← readBlockPart around key.graph behind
      let others ← readBlockEntries around value.graph (behind.drop value.used)
      return ⟨(key.value, value.value) :: others.value, 2 + key.used + value.used + others.used,
        others.graph⟩
    | _ =>
      let nothing := key.graph.readNothing
      let others ← readBlockEntries around nothing.graph (rest.drop key.used)
      return ⟨(key.value, nothing.value) :: others.value, 1 + key.used + others.used, others.graph⟩
  | _ => throw .malformed
termination_by tokens.length * 4
decreasing_by
  all_goals
    try have lengths := congrArg List.length _after
    simp only [List.length_drop, List.length_cons] at *
    omega

/-- Reads the key or value behind its mark in a flow collection; nothing is written in front
of a mark that ends it. -/
def readFlowPart (around : Surroundings) (graph : Graph) (ends : Token → Bool)
    (tokens : List Token) : Except Fault (Reading Nat) := do
  match tokens.head? with
  | none => throw around.ending
  | some token =>
    if ends token then return graph.readNothing
    else readNode around graph false false tokens
termination_by tokens.length * 4 + 2
decreasing_by all_goals omega

/-- Reads the items of a flow sequence up to and with its bracket. An item with a key mark is
a mapping of one entry. `first` is set where no comma is due. -/
def readFlowItems (around : Surroundings) (graph : Graph) (first : Bool)
    (tokens : List Token) : Except Fault (Reading (List Nat)) := do
  match tokens with
  | [] => throw around.ending
  | .flowSequenceEnd :: _ => return ⟨[], 1, graph⟩
  | .flowEntry :: rest =>
    if first then throw .malformed
    match rest.head? with
    | some .flowSequenceEnd => return ⟨[], 2, graph⟩
    | some .flowEntry => throw .malformed
    | _ =>
      let others ← readFlowItems around graph true rest
      return ⟨others.value, others.used + 1, others.graph⟩
  | .key :: rest =>
    if !first then throw .malformed
    let key ← readFlowPart around graph
      (fun token => token = .value || token = .flowEntry || token = .flowSequenceEnd) rest
    match _after : rest.drop key.used with
    | [] => throw around.ending
    | .value :: behind =>
      let value ← readFlowPart around key.graph
        (fun token => token = .flowEntry || token = .flowSequenceEnd) behind
      let pair := value.graph.read (.mapping .map [(key.value, value.value)]) 0
      let others ← readFlowItems around pair.graph false (behind.drop value.used)
      return ⟨pair.value :: others.value, 2 + key.used + value.used + others.used, others.graph⟩
    | _ =>
      let nothing := key.graph.readNothing
      let pair := nothing.graph.read (.mapping .map [(key.value, nothing.value)]) 0
      let others ← readFlowItems around pair.graph false (rest.drop key.used)
      return ⟨pair.value :: others.value, 1 + key.used + others.used, others.graph⟩
  | token :: rest =>
    if !first then throw .malformed
    let item ← readNode around graph false false (token :: rest)
    let others ← readFlowItems around item.graph false (rest.drop (item.used - 1))
    return ⟨item.value :: others.value, item.used + others.used, others.graph⟩
termination_by tokens.length * 4 + 3
decreasing_by
  all_goals
    try have lengths := congrArg List.length _after
    simp only [List.length_drop, List.length_cons] at *
    omega

/-- Reads the entries of a flow mapping up to and with its brace. An entry without a key mark
is a key with nothing for its value. `first` is set where no comma is due. -/
def readFlowEntries (around : Surroundings) (graph : Graph) (first : Bool)
    (tokens : List Token) : Except Fault (Reading (List (Nat × Nat))) := do
  match tokens with
  | [] => throw around.ending
  | .flowMappingEnd :: _ => return ⟨[], 1, graph⟩
  | .flowEntry :: rest =>
    if first then throw .malformed
    match rest.head? with
    | some .flowMappingEnd => return ⟨[], 2, graph⟩
    | some .flowEntry => throw .malformed
    | _ =>
      let others ← readFlowEntries around graph true rest
      return ⟨others.value, others.used + 1, others.graph⟩
  | .key :: rest =>
    if !first then throw .malformed
    let key ← readFlowPart around graph
      (fun token => token = .value || token = .flowEntry || token = .flowMappingEnd) rest
    match _after : rest.drop key.used with
    | [] => throw around.ending
    | .value :: behind =>
      let value ← readFlowPart around key.graph
        (fun token => token = .flowEntry || token = .flowMappingEnd) behind
      let others ← readFlowEntries around value.graph false (behind.drop value.used)
      return ⟨(key.value, value.value) :: others.value,
        2 + key.used + value.used + others.used, others.graph⟩
    | _ =>
      let nothing := key.graph.readNothing
      let others ← readFlowEntries around nothing.graph false (rest.drop key.used)
      return ⟨(key.value, nothing.value) :: others.value, 1 + key.used + others.used, others.graph⟩
  | token :: rest =>
    if !first then throw .malformed
    let key ← readNode around graph false false (token :: rest)
    let nothing := key.graph.readNothing
    let others ← readFlowEntries around nothing.graph false (rest.drop (key.used - 1))
    return ⟨(key.value, nothing.value) :: others.value, key.used + others.used, others.graph⟩
termination_by tokens.length * 4 + 3
decreasing_by
  all_goals
    try have lengths := congrArg List.length _after
    simp only [List.length_drop, List.length_cons] at *
    omega

end

/-! ### Documents -/

/-- Reads directive lines: the tag handles they give, and the tokens used. A version comes at
most once and is of the first edition; a handle is given at most once. -/
def readDirectives (ending : Fault) (versioned : Bool) (handles : List (String × String)) :
    List Token → Except Fault (List (String × String) × Nat)
  | [] => .error ending
  | .directive line :: rest =>
    match line with
    | .version major _ =>
      if versioned || major != 1 then .error .malformed
      else (readDirectives ending true handles rest).map fun found => (found.1, found.2 + 1)
    | .tag handle replacement =>
      if (handles.lookup handle).isSome then .error .malformed
      else (readDirectives ending versioned ((handle, replacement) :: handles) rest).map
        fun found => (found.1, found.2 + 1)
    | .other =>
      (readDirectives ending versioned handles rest).map fun found => (found.1, found.2 + 1)
  | _ => .ok (handles, 0)

/-- Reads the content of a document behind its mark. -/
def readContent (around : Surroundings) (tokens : List Token) : Except Fault (Reading Nat) :=
  match tokens with
  | [] => .error around.ending
  | .directive _ :: _ | .documentStart :: _ | .documentEnd :: _ | .streamEnd :: _ =>
    .ok ({} : Graph).readNothing
  | _ => readNode around {} true false tokens

/-- Demands that nothing but document ends stand before the end of the text. -/
def expectEnd (ending : Fault) : List Token → Except Fault Unit
  | [] => .error ending
  | .documentEnd :: rest => expectEnd ending rest
  | .streamEnd :: _ => .ok ()
  | _ => .error .malformed

/-- Reads the only document of a text, down from its uppermost node; `none` for a text without
any. A text may have one document and no second. -/
def readDocument (ending : Fault) (tokens : List Token) : Except Fault (Option (Reading Nat)) := do
  match tokens with
  | [] => throw ending
  | .streamEnd :: _ => return none
  | .directive _ :: _ | .documentStart :: _ =>
    let (handles, used) ← readDirectives ending false [] tokens
    let after := tokens.drop used
    match after with
    | [] => throw ending
    | .documentStart :: rest =>
      let given := handles ++ standardHandles
      let reading ← readContent ⟨given, ending⟩ rest
      expectEnd ending (rest.drop reading.used)
      return some reading
    | _ => throw .malformed
  | _ =>
    let reading ← readNode ⟨standardHandles, ending⟩ {} true false tokens
    expectEnd ending (tokens.drop reading.used)
    return some reading

/-- The graph of a text with its uppermost node; `none` for a text without a document. -/
def graphOf (text : List Char) : Except Fault (Option (Reading Nat)) :=
  let tokens := tokensOf text
  readDocument (tokens.fault.getD .malformed) (tokens.handed.drop 1)

end GoApiDoc.Yaml
