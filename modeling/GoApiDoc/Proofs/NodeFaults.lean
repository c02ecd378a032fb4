/-
This file says why a YAML text that can be cut into tokens has no value. Reading the tokens as nodes
has no faults of its own: it stops at a malformed text, or where the tokens end, and then for the
reason for which they end there. What is left is a node whose text is not that of a value of its
tag.

Loading changes nodes: merging keys replaces the entries of a mapping, and a default that is a key
becomes a string. No node gets another text, or another tag than that of strings, so a node at
fault stems from one that was read.
-/

import GoApiDoc.Yaml.Load
import GoApiDoc.Proofs.TextFaults
import Mathlib.Data.List.Perm.Subperm
import Mathlib.Logic.Relation

namespace GoApiDoc.Yaml

/-! ### Reading nodes -/

section

variable {ending : Fault}

/-- Properties may end with the tokens; nothing about them is malformed. -/
theorem properties_fails (tokens : List Token) :
    Fails (· = ending) (properties ending tokens) := by
  unfold properties
  split
  · split
    · exact Or.inr rfl
    · trivial
    · trivial
  · split
    · exact Or.inr rfl
    · trivial
    · trivial
  · trivial

/-- A handle that is not known is malformed. -/
theorem tagName_fails {cause : Fault → Prop} (handles : List (String × String))
    (tag : Option (Option String × String)) : Fails cause (tagName handles tag) := by
  unfold tagName
  split
  · trivial
  · trivial
  · split
    · trivial
    · exact Yields.malformed

/-- An anchor can be given twice, which is malformed; nothing else is wrong with a place. -/
theorem reserve_fails {cause : Fault → Prop} (graph : Graph) (anchor : Option String) :
    Fails cause (graph.reserve anchor) := by
  unfold Graph.reserve
  dsimp only
  split
  · trivial
  · exact Yields.ite (fun _ => Yields.malformed) fun _ => trivial

end

/-- The productions read the tokens of lists shorter than the size without a fault of their own. -/
structure ReadsBelow (around : Surroundings) (size : Nat) : Prop where
  node : ∀ graph block indentless tokens, tokens.length < size →
    Fails (· = around.ending) (readNode around graph block indentless tokens)
  blockItems : ∀ graph tokens, tokens.length < size →
    Fails (· = around.ending) (readBlockItems around graph tokens)
  blockEntries : ∀ graph tokens, tokens.length < size →
    Fails (· = around.ending) (readBlockEntries around graph tokens)
  flowItems : ∀ graph first tokens, tokens.length < size →
    Fails (· = around.ending) (readFlowItems around graph first tokens)
  flowEntries : ∀ graph first tokens, tokens.length < size →
    Fails (· = around.ending) (readFlowEntries around graph first tokens)
  indentless : ∀ graph tokens, tokens.length < size →
    Fails (· = around.ending) (readIndentless around graph tokens)

namespace ReadsBelow

variable {around : Surroundings} {size : Nat}

/-- The tokens behind the first one are fewer. -/
theorem drop_lt {token : Token} {rest : List Token} (within : (token :: rest).length < size + 1)
    (count : Nat) : (rest.drop count).length < size := by
  rw [List.length_cons] at within
  rw [List.length_drop]
  omega

theorem behind_lt {token : Token} {tokens rest : List Token} {used : Nat}
    (within : tokens.length < size + 1) (found : tokens.drop used = token :: rest) (count : Nat) :
    (rest.drop count).length < size := by
  have here : (token :: rest).length < size + 1 := by
    rw [← found, List.length_drop]
    omega
  exact drop_lt here count

section

variable (below : ReadsBelow around size)
include below

theorem blockItems_next (graph : Graph) (tokens : List Token) (within : tokens.length < size + 1) :
    Fails (· = around.ending) (readBlockItems around graph tokens) := by
  unfold readBlockItems
  split
  · exact Or.inr rfl
  · trivial
  · next rest =>
    have shorter := drop_lt within
    split
    · exact Or.inr rfl
    · exact (below.blockItems _ rest (shorter 0)).bind fun _ => trivial
    · exact (below.blockItems _ rest (shorter 0)).bind fun _ => trivial
    · exact (below.node _ _ _ rest (shorter 0)).bind fun item =>
        (below.blockItems _ _ (shorter _)).bind fun _ => trivial
  · exact Yields.malformed

theorem indentless_next (graph : Graph) (tokens : List Token)
    (within : tokens.length < size + 1) :
    Fails (· = around.ending) (readIndentless around graph tokens) := by
  unfold readIndentless
  split
  · exact Or.inr rfl
  · next rest =>
    have shorter := drop_lt within
    split
    · exact Or.inr rfl
    · exact (below.indentless _ rest (shorter 0)).bind fun _ => trivial
    · exact (below.indentless _ rest (shorter 0)).bind fun _ => trivial
    · exact (below.indentless _ rest (shorter 0)).bind fun _ => trivial
    · exact (below.indentless _ rest (shorter 0)).bind fun _ => trivial
    · exact (below.node _ _ _ rest (shorter 0)).bind fun item =>
        (below.indentless _ _ (shorter _)).bind fun _ => trivial
  · trivial

theorem blockPart (graph : Graph) (tokens : List Token) (within : tokens.length < size) :
    Fails (· = around.ending) (readBlockPart around graph tokens) := by
  unfold readBlockPart
  split
  · exact Or.inr rfl
  · trivial
  · trivial
  · trivial
  · exact below.node graph true true tokens within

theorem flowPart (graph : Graph) (ends : Token → Bool) (tokens : List Token)
    (within : tokens.length < size) :
    Fails (· = around.ending) (readFlowPart around graph ends tokens) := by
  unfold readFlowPart
  split
  · exact Or.inr rfl
  · exact Yields.ite (fun _ => trivial) fun _ => below.node graph false false tokens within

theorem blockEntries_next (graph : Graph) (tokens : List Token)
    (within : tokens.length < size + 1) :
    Fails (· = around.ending) (readBlockEntries around graph tokens) := by
  unfold readBlockEntries
  split
  · exact Or.inr rfl
  · trivial
  · next rest =>
    have shorter := drop_lt within
    refine (below.blockPart _ rest (shorter 0)).bind fun key => ?_
    split
    · exact Or.inr rfl
    · next behind found =>
      have shorterStill := behind_lt (Nat.lt_succ_of_lt (shorter 0)) found
      exact (below.blockPart _ behind (shorterStill 0)).bind fun value =>
        (below.blockEntries _ _ (shorterStill _)).bind fun _ => trivial
    · exact (below.blockEntries _ _ (shorter _)).bind fun _ => trivial
  · exact Yields.malformed

/-- A node takes a token before anything inside it is read, but for a sequence without indentation,
which takes one for its first item. -/
theorem node_next (graph : Graph) (block indentless : Bool) (tokens : List Token)
    (within : tokens.length < size + 1) :
    Fails (· = around.ending) (readNode around graph block indentless tokens) := by
  unfold readNode
  split
  · split
    · trivial
    · exact Yields.malformed
  · refine (properties_fails tokens).bind fun found => (tagName_fails _ _).bind fun name => ?_
    dsimp only
    split
    · exact Or.inr rfl
    · next token rest content =>
      have shorter := behind_lt within content
      have opened : ∀ next : Graph → Except Fault (Reading Nat),
          (∀ graph, Fails (· = around.ending) (next graph)) →
          Fails (· = around.ending) (graph.reserve found.anchor >>= next) :=
        fun _ others => (reserve_fails graph found.anchor).bind others
      split
      · exact opened _ fun _ => trivial
      · exact opened _ fun graph => (below.flowItems _ _ rest (shorter 0)).bind fun _ => trivial
      · exact opened _ fun graph => (below.flowEntries _ _ rest (shorter 0)).bind fun _ => trivial
      · have same : (Token.blockEntry :: rest).length < size + 1 := by
          rw [← content, List.length_drop]
          omega
        exact opened _ fun graph => (below.indentless_next _ _ same).bind fun _ => trivial
      · exact opened _ fun graph => (below.blockItems _ rest (shorter 0)).bind fun _ => trivial
      · exact opened _ fun graph => (below.blockEntries _ rest (shorter 0)).bind fun _ => trivial
      · exact Yields.ite (fun _ => Yields.malformed) fun _ => opened _ fun _ => trivial

/-- An item without a mark is a node that starts at the same token. -/
theorem flowItems_next (graph : Graph) (first : Bool) (tokens : List Token)
    (within : tokens.length < size + 1) :
    Fails (· = around.ending) (readFlowItems around graph first tokens) := by
  unfold readFlowItems
  split
  · exact Or.inr rfl
  · trivial
  · next rest =>
    have shorter := drop_lt within
    dsimp only
    refine Yields.ite (fun _ => Yields.malformed_bind) fun _ => ?_
    split
    · trivial
    · exact Yields.malformed
    · exact (below.flowItems _ _ rest (shorter 0)).bind fun _ => trivial
  · next rest =>
    have shorter := drop_lt within
    dsimp only
    refine Yields.ite (fun _ => Yields.malformed_bind) fun _ => ?_
    refine (below.flowPart _ _ rest (shorter 0)).bind fun key => ?_
    split
    · exact Or.inr rfl
    · next behind found =>
      have shorterStill := behind_lt (Nat.lt_succ_of_lt (shorter 0)) found
      exact (below.flowPart _ _ behind (shorterStill 0)).bind fun value =>
        (below.flowItems _ _ _ (shorterStill _)).bind fun _ => trivial
    · exact (below.flowItems _ _ _ (shorter _)).bind fun _ => trivial
  · next token rest _ _ _ =>
    have shorter := drop_lt within
    dsimp only
    refine Yields.ite (fun _ => Yields.malformed_bind) fun _ => ?_
    exact (below.node_next _ _ _ _ within).bind fun item =>
      (below.flowItems _ _ _ (shorter _)).bind fun _ => trivial

theorem flowEntries_next (graph : Graph) (first : Bool) (tokens : List Token)
    (within : tokens.length < size + 1) :
    Fails (· = around.ending) (readFlowEntries around graph first tokens) := by
  unfold readFlowEntries
  split
  · exact Or.inr rfl
  · trivial
  · next rest =>
    have shorter := drop_lt within
    dsimp only
    refine Yields.ite (fun _ => Yields.malformed_bind) fun _ => ?_
    split
    · trivial
    · exact Yields.malformed
    · exact (below.flowEntries _ _ rest (shorter 0)).bind fun _ => trivial
  · next rest =>
    have shorter := drop_lt within
    dsimp only
    refine Yields.ite (fun _ => Yields.malformed_bind) fun _ => ?_
    refine (below.flowPart _ _ rest (shorter 0)).bind fun key => ?_
    split
    · exact Or.inr rfl
    · next behind found =>
      have shorterStill := behind_lt (Nat.lt_succ_of_lt (shorter 0)) found
      exact (below.flowPart _ _ behind (shorterStill 0)).bind fun value =>
        (below.flowEntries _ _ _ (shorterStill _)).bind fun _ => trivial
    · exact (below.flowEntries _ _ _ (shorter _)).bind fun _ => trivial
  · next token rest _ _ _ =>
    have shorter := drop_lt within
    dsimp only
    refine Yields.ite (fun _ => Yields.malformed_bind) fun _ => ?_
    exact (below.node_next _ _ _ _ within).bind fun key =>
      (below.flowEntries _ _ _ (shorter _)).bind fun _ => trivial

end

end ReadsBelow

/-- Every production calls the others for fewer tokens. -/
theorem readsBelow (around : Surroundings) (size : Nat) : ReadsBelow around size := by
  induction size with
  | zero => constructor <;> omega
  | succ size below =>
    exact {
      node := below.node_next
      blockItems := below.blockItems_next
      blockEntries := below.blockEntries_next
      flowItems := below.flowItems_next
      flowEntries := below.flowEntries_next
      indentless := below.indentless_next }

/-- A node has no faults but the ending of the tokens. -/
theorem readNode_fails (around : Surroundings) (graph : Graph) (block indentless : Bool)
    (tokens : List Token) :
    Fails (· = around.ending) (readNode around graph block indentless tokens) :=
  (readsBelow around (tokens.length + 1)).node graph block indentless tokens (Nat.lt_succ_self _)

/-! ### Reading documents -/

section

variable {ending : Fault}

theorem readDirectives_fails (versioned : Bool) (handles : List (String × String))
    (tokens : List Token) :
    Fails (· = ending) (readDirectives ending versioned handles tokens) := by
  fun_induction readDirectives ending versioned handles tokens with
  | case1 => exact Or.inr rfl
  | case2 => exact Yields.malformed
  | case3 _ _ _ _ _ _ inductionHypothesis => exact inductionHypothesis.map _
  | case4 => exact Yields.malformed
  | case5 _ _ _ _ _ _ inductionHypothesis => exact inductionHypothesis.map _
  | case6 _ _ _ inductionHypothesis => exact inductionHypothesis.map _
  | case7 => trivial

theorem readContent_fails (around : Surroundings) (tokens : List Token) :
    Fails (· = around.ending) (readContent around tokens) := by
  unfold readContent
  split
  · exact Or.inr rfl
  · trivial
  · trivial
  · trivial
  · trivial
  · exact readNode_fails ..

theorem expectEnd_fails (tokens : List Token) : Fails (· = ending) (expectEnd ending tokens) := by
  fun_induction expectEnd ending tokens with
  | case1 => exact Or.inr rfl
  | case2 rest inductionHypothesis => exact inductionHypothesis
  | case3 => trivial
  | case4 => exact Yields.malformed

/-- A document has no faults but the ending of the tokens. -/
theorem readDocument_fails (tokens : List Token) :
    Fails (· = ending) (readDocument ending tokens) := by
  unfold readDocument
  split
  · exact Or.inr rfl
  · trivial
  -- A directive and the start of a document are read alike.
  iterate 2
    · refine (readDirectives_fails ..).bind fun found => ?_
      dsimp only
      split
      · exact Or.inr rfl
      · exact (readContent_fails ..).bind fun _ => (expectEnd_fails _).bind fun _ => trivial
      · exact Yields.malformed
  · exact (readNode_fails ..).bind fun reading => (expectEnd_fails _).bind fun _ => trivial

end

/-- The graph of a text fails to come about because the text is malformed, or for a place in it. -/
theorem graphOf_fails (text : List Char) : Fails (TextFault text) (graphOf text) := by
  have ends : (tokensOf text).fault.getD .malformed = .malformed ∨
      TextFault text ((tokensOf text).fault.getD .malformed) := by
    cases failed : (tokensOf text).fault with
    | none => exact Or.inl rfl
    | some fault => exact tokensOf_fault failed
  have reads : Fails _ (graphOf text) := readDocument_fails ((tokensOf text).handed.drop 1)
  cases read : graphOf text with
  | ok found => trivial
  | error fault =>
    rw [read] at reads
    rcases reads with malformed | same
    · exact Or.inl malformed
    · exact same ▸ ends

/-! ### Loading -/

/-- A node lies directly below another one: it is an item of the sequence or the value of an entry
of the mapping. -/
inductive Below (nodes : Array Node) (number : Nat) : Nat → Prop
  | item {tag : Tag} {items : List Nat} {item : Nat}
      (found : nodes[number]? = some (.sequence tag items)) (member : item ∈ items) :
      Below nodes number item
  | value {tag : Tag} {entries : List (Nat × Nat)} {entry : Nat × Nat}
      (found : nodes[number]? = some (.mapping tag entries)) (member : entry ∈ entries) :
      Below nodes number entry.2

/-- A node lies at some depth below another one. -/
abbrev Reaches (nodes : Array Node) : Nat → Nat → Prop :=
  Relation.TransGen (Below nodes)

/-- The nodes whose text is not that of a value of their tag. A mapping with the default mark stands
for the text of another node; as a timestamp it stands for nothing. Where a collection lies below
itself, a mark can lead in a circle. -/
inductive NodeFault (nodes : Array Node) : Fault → Prop
  | scalar {tag : Tag} {text : Text} {number : Nat} {fault : Fault}
      (member : .scalar tag text ∈ nodes) (fails : scalarValue number tag text = .error fault) :
      NodeFault nodes fault
  | standsFor {tag other : Tag} {entries : List (Nat × Nat)} {text : Text} {number : Nat}
      {fault : Fault} (member : .mapping tag entries ∈ nodes) (spelled : .scalar other text ∈ nodes)
      (fails : scalarValue number tag text = .error fault) : NodeFault nodes fault
  | timestamp {entries : List (Nat × Nat)} (member : .mapping .timestamp entries ∈ nodes) :
      NodeFault nodes .timestampOfMapping
  | endless {number key : Nat} (recursive : Reaches nodes number number)
      (mark : hasTag nodes .default key) : NodeFault nodes .endless

/-- What may have become of the node of a number: it is still what it was, but for the mark of a
default, which is only a string where it is a key, and for the entries of a mapping, whose values
were below it from the start. -/
inductive Node.StemsFrom (nodes : Array Node) (number : Nat) : Node → Prop
  | scalar {tag own : Tag} {text : Text} (was : nodes[number]? = some (.scalar own text))
      (kept : tag = .str ∨ tag = own) : StemsFrom nodes number (.scalar tag text)
  | sequence {tag own : Tag} {items : List Nat} (was : nodes[number]? = some (.sequence own items))
      (kept : tag = .str ∨ tag = own) : StemsFrom nodes number (.sequence tag items)
  | mapping {tag own : Tag} {entries others : List (Nat × Nat)}
      (was : nodes[number]? = some (.mapping own others)) (kept : tag = .str ∨ tag = own)
      (reached : ∀ entry ∈ entries, Reaches nodes number entry.2) :
      StemsFrom nodes number (.mapping tag entries)

/-- All current nodes stem from the nodes of their numbers. -/
def Stemming (nodes current : Array Node) : Prop :=
  ∀ (number : Nat) (node : Node), current[number]? = some node → node.StemsFrom nodes number

section

variable {nodes current : Array Node} {cause : Fault → Prop}

theorem stemming_self (nodes : Array Node) : Stemming nodes nodes := by
  intro number node found
  cases node with
  | scalar tag text => exact .scalar found (Or.inr rfl)
  | sequence tag items => exact .sequence found (Or.inr rfl)
  | mapping tag entries =>
    exact .mapping found (Or.inr rfl) fun entry member => .single (.value found member)

theorem Stemming.set (stemming : Stemming nodes current) (number : Nat) (node : Node)
    (stems : node.StemsFrom nodes number) :
    Stemming nodes (current.setIfInBounds number node) := by
  intro other found same
  rw [Array.getElem?_setIfInBounds] at same
  split at same
  · next here =>
    split at same
    · exact here ▸ Option.some.inj same ▸ stems
    · nomatch same
  · exact stemming other found same

/-- The values of the current entries of a mapping were below it from the start. -/
theorem Stemming.reaches (stemming : Stemming nodes current) {number : Nat} {tag : Tag}
    {entries : List (Nat × Nat)} (found : current[number]? = some (.mapping tag entries)) :
    ∀ entry ∈ entries, Reaches nodes number entry.2 := by
  cases stemming number _ found with
  | mapping was kept reached => exact reached

/-- Other entries whose values were below the mapping may take the place of its entries. -/
theorem Stemming.setEntries (stemming : Stemming nodes current) {number : Nat} {tag : Tag}
    {entries others : List (Nat × Nat)} (found : current[number]? = some (.mapping tag entries))
    (reached : ∀ entry ∈ others, Reaches nodes number entry.2) :
    Stemming nodes (current.setIfInBounds number (.mapping tag others)) := by
  cases stemming number _ found with
  | mapping was kept _ => exact stemming.set number _ (.mapping was kept reached)

/-- A mark of a default may become that of a string. -/
theorem Stemming.withoutDefault (stemming : Stemming nodes current) (number : Nat) :
    Stemming nodes (withoutDefault current number) := by
  unfold Yaml.withoutDefault
  split
  · next text found =>
    cases stemming number _ found with
    | scalar was kept => exact stemming.set number _ (.scalar was (Or.inl rfl))
  · next items found =>
    cases stemming number _ found with
    | sequence was kept => exact stemming.set number _ (.sequence was (Or.inl rfl))
  · next entries found =>
    cases stemming number _ found with
    | mapping was kept reached => exact stemming.set number _ (.mapping was (Or.inl rfl) reached)
  · exact stemming

/-- The tag is the one that the node had, or that of strings. -/
theorem Node.StemsFrom.tag {number : Nat} {node : Node} (stems : node.StemsFrom nodes number) :
    ∃ own, nodes[number]? = some own ∧ (node.tag = .str ∨ node.tag = own.tag) := by
  cases stems with
  | scalar was kept => exact ⟨_, was, kept⟩
  | sequence was kept => exact ⟨_, was, kept⟩
  | mapping was kept => exact ⟨_, was, kept⟩

/-- A mark of a default was there from the start. -/
theorem Stemming.hasTag_default (stemming : Stemming nodes current) {number : Nat}
    (marked : hasTag current .default number) : hasTag nodes .default number := by
  unfold hasTag at marked ⊢
  split at marked
  · next node found =>
    obtain ⟨own, was, kept⟩ := (stemming number node found).tag
    rw [beq_iff_eq.mp marked] at kept
    rw [was]
    exact beq_iff_eq.mpr (kept.resolve_left (by decide)).symm
  · nomatch marked

/-! ### Merging -/

/-- The entries of a mapping are found, or it is malformed. -/
theorem entriesAt_yields (current : Array Node) (number : Nat) :
    Yields (fun entries => ∃ tag, current[number]? = some (.mapping tag entries)) cause
      (entriesAt current number) := by
  unfold entriesAt
  split
  · next tag entries found => exact ⟨tag, found⟩
  · exact Yields.malformed

theorem itemsAt_fails (current : Array Node) (number : Nat) :
    Fails cause (itemsAt current number) := by
  unfold itemsAt
  split
  · trivial
  · exact Yields.malformed

/-- Finding the entries of a mapping keeps where the nodes stem from, and the values of the entries
lie below the mapping. -/
def Bring.Keeps (nodes : Array Node) (cause : Fault → Prop) (bring : Bring) : Prop :=
  ∀ current number, Stemming nodes current →
    Yields (fun found => Stemming nodes found.2 ∧ ∀ entry ∈ found.1, Reaches nodes number entry.2)
      cause (bring current number)

/-- The entries of the mappings in a sequence lie below the number that the sequence lies below. -/
theorem bringItems_keeps {bring : Bring} (keeps : bring.Keeps nodes cause) {number : Nat}
    (items : List Nat) (reached : ∀ item ∈ items, Reaches nodes number item)
    (stemming : Stemming nodes current) :
    Yields (fun found => Stemming nodes found.2 ∧ ∀ entry ∈ found.1, Reaches nodes number entry.2)
      cause (bringItems bring current items) := by
  induction items generalizing current with
  | nil => exact ⟨stemming, nofun⟩
  | cons item rest inductionHypothesis =>
    obtain ⟨first, others⟩ := List.forall_mem_cons.mp reached
    refine (keeps current item stemming).bind ?_
    rintro ⟨brought, next⟩ ⟨kept, below⟩
    refine (inductionHypothesis others kept).bind ?_
    rintro ⟨more, last⟩ ⟨after, belowOthers⟩
    exact ⟨after, List.forall_mem_append.mpr
      ⟨belowOthers, fun entry member => first.trans (below entry member)⟩⟩

/-- The nodes stem from those there were, and what was brought was below the number. -/
structure Merging.Keeps (nodes : Array Node) (number : Nat) (merging : Merging) : Prop where
  stemming : Stemming nodes merging.nodes
  reached : ∀ entry ∈ merging.brought, Reaches nodes number entry.2

/-- An entry may be gone. -/
theorem Stemming.withoutEntry (stemming : Stemming nodes current) {number : Nat}
    {entry : Nat × Nat} {next : Array Node}
    (removed : withoutEntry current number entry = some next) : Stemming nodes next := by
  unfold Yaml.withoutEntry at removed
  split at removed
  · next tag entries found =>
    split at removed
    · obtain rfl := Option.some.inj removed
      exact stemming.setEntries found fun other member =>
        stemming.reaches found other (List.mem_of_mem_erase member)
    · nomatch removed
  · nomatch removed

/-- A merge key brings entries whose values lie below the mapping that it names, and so below the
mapping it stands in. -/
theorem mergeEntry_keeps {bring : Bring} (keeps : bring.Keeps nodes cause) {number : Nat}
    {merging : Merging} {entry : Nat × Nat} (reached : Reaches nodes number entry.2)
    (kept : merging.Keeps nodes number) :
    Yields (Merging.Keeps nodes number) cause (mergeEntry bring number merging entry) := by
  unfold mergeEntry
  refine Yields.ite (fun _ => ?_) fun _ => ⟨kept.stemming.withoutDefault _, kept.reached⟩
  split
  · exact kept
  · next current removed =>
    have stemming := kept.stemming.withoutEntry removed
    have finish : ∀ found : List (Nat × Nat) × Array Node, Stemming nodes found.2 →
        (∀ entry ∈ found.1, Reaches nodes number entry.2) →
          Merging.Keeps nodes number ⟨merging.brought ++ found.1, found.2⟩ :=
      fun found after below => ⟨after, List.forall_mem_append.mpr ⟨kept.reached, below⟩⟩
    dsimp only
    split
    · next tag items found =>
      cases stemming entry.2 _ found with
      | sequence was _ =>
        have below : ∀ item ∈ items, Reaches nodes number item :=
          fun item member => reached.tail (.item was member)
        exact (bringItems_keeps keeps items below stemming).bind fun found both =>
          finish found both.1 both.2
    · exact (keeps current entry.2 stemming).bind fun found both =>
        finish found both.1 fun other member => reached.trans (both.2 other member)

/-- Merging moves entries upwards only. -/
theorem merge_keeps (steps : Nat) (number : Nat) (stemming : Stemming nodes current) :
    Yields (Stemming nodes) cause (merge steps current number) := by
  induction steps generalizing current number with
  | zero => exact Yields.malformed
  | succ steps inductionHypothesis =>
    have keeps : Bring.Keeps nodes cause fun nodes number => do
        let nodes ← merge steps nodes number
        return (← entriesAt nodes number, nodes) := by
      intro current number stemming
      refine (inductionHypothesis number stemming).bind fun merged kept => ?_
      refine (entriesAt_yields merged number).bind ?_
      rintro entries ⟨tag, found⟩
      exact ⟨kept, kept.reaches found⟩
    unfold merge
    refine (entriesAt_yields current number).bind ?_
    rintro entries ⟨tag, found⟩
    have start : Merging.Keeps nodes number { nodes := current } := ⟨stemming, nofun⟩
    have merged : Yields (Merging.Keeps nodes number) cause
        (entries.foldlM (mergeEntry _ number) { nodes := current }) :=
      Yields.foldlM entries start fun merging entry member =>
        mergeEntry_keeps keeps (stemming.reaches found entry member)
    refine merged.bind fun merging kept => ?_
    split
    · next tag own here =>
      exact kept.stemming.setEntries here
        (List.forall_mem_append.mpr ⟨kept.reached, kept.stemming.reaches here⟩)
    · exact Yields.malformed

/-! ### Circles -/

/-- Looking for the text that a mapping stands for ends after a number of steps only if as many
mappings lie below one another. -/
theorem exists_path {steps number : Nat} (stemming : Stemming nodes current)
    (failed : scalarText current steps number = .error .endless) :
    ∃ path : List Nat, path.length = steps ∧ path.Pairwise (Reaches nodes) ∧
      ∀ other ∈ path, other < current.size ∧
        Relation.ReflTransGen (Below nodes) number other := by
  induction steps generalizing number with
  | zero => exact ⟨[], rfl, .nil, nofun⟩
  | succ steps inductionHypothesis =>
    unfold scalarText at failed
    split at failed
    · nomatch failed
    · next tag entries found =>
      split at failed
      · next key value marked =>
        have step := stemming.reaches found _ (List.mem_of_find?_eq_some marked)
        obtain ⟨path, length, apart, below⟩ := inductionHypothesis failed
        have inside : number < current.size := (Array.getElem?_eq_some_iff.mp found).1
        refine ⟨number :: path, congrArg (· + 1) length, .cons ?_ apart, ?_⟩
        · exact fun other member => Relation.TransGen.trans_left step (below other member).2
        · refine List.forall_mem_cons.mpr ⟨⟨inside, .refl⟩, fun other member => ?_⟩
          exact ⟨(below other member).1, step.to_reflTransGen.trans (below other member).2⟩
      · nomatch failed
    · nomatch failed

/-- Of more numbers than there are nodes two are the same, so one of them lies below itself. -/
theorem exists_reaches_self {path : List Nat} {size : Nat} (apart : path.Pairwise (Reaches nodes))
    (below : ∀ number ∈ path, number < size) (long : size < path.length) :
    ∃ number, Reaches nodes number number := by
  by_contra none
  have different : path.Nodup := by
    refine apart.imp fun {number other} reaches same => ?_
    subst same
    exact none ⟨number, reaches⟩
  have within : path ⊆ List.range size := fun number member =>
    List.mem_range.mpr (below number member)
  have few := (different.subperm within).length_le
  rw [List.length_range] at few
  omega

/-- A search that ends for the number of its steps has come to a node twice. -/
theorem endless_of_scalarText (stemming : Stemming nodes current) {number : Nat}
    (failed : scalarText current (current.size + 1) number = .error .endless) :
    NodeFault nodes .endless := by
  obtain ⟨path, length, apart, below⟩ := exists_path stemming failed
  obtain ⟨circle, recursive⟩ := exists_reaches_self apart
    (fun other member => (below other member).1) (length ▸ Nat.lt_succ_self _)
  unfold scalarText at failed
  split at failed
  · nomatch failed
  · split at failed
    · next key value marked =>
      have mark : hasTag current .default key :=
        List.find?_some (p := fun entry : Nat × Nat => hasTag current .default entry.1) marked
      exact .endless recursive (stemming.hasTag_default mark)
    · nomatch failed
  · nomatch failed

/-! ### Values -/

/-- The text that a node stands for is that of a scalar, unless it leads in a circle. -/
theorem scalarText_stems (steps number : Nat) (stemming : Stemming nodes current) :
    Yields (fun text => ∃ other, .scalar other text ∈ nodes) (· = .endless)
      (scalarText current steps number) := by
  induction steps generalizing number with
  | zero => exact Or.inr rfl
  | succ steps inductionHypothesis =>
    unfold scalarText
    split
    · next tag text found =>
      cases stemming number _ found with
      | scalar was kept => exact ⟨_, Array.mem_of_getElem? was⟩
    · split
      · next key value _ => exact inductionHypothesis value
      · exact Yields.malformed
    · exact Yields.malformed

/-- The same for the steps that are looked at, where a circle is one of the faults of nodes. -/
theorem scalarText_fails (number : Nat) (stemming : Stemming nodes current) :
    Yields (fun text => ∃ other, .scalar other text ∈ nodes) (NodeFault nodes)
      (scalarText current (current.size + 1) number) := by
  have stems := scalarText_stems (current.size + 1) number stemming
  cases read : scalarText current (current.size + 1) number with
  | ok text =>
    rw [read] at stems
    exact stems
  | error fault =>
    rw [read] at stems
    refine stems.imp_right ?_
    rintro rfl
    exact endless_of_scalarText stemming read

/-- A text fits its tag, unless the tag is that of a node and gives the fault. -/
theorem scalarValue_fails {tag own : Tag} {text : Text} (number : Nat)
    (kept : tag = .str ∨ tag = own)
    (causes : ∀ fault, scalarValue number own text = .error fault → cause fault) :
    Fails cause (scalarValue number tag text) := by
  cases read : scalarValue number tag text with
  | ok value => trivial
  | error fault =>
    rcases kept with rfl | rfl
    · nomatch read
    · exact Or.inr (causes fault read)

/-- A node that is no collection has a value, or a fault of its text. -/
theorem valueOf_fails (stemming : Stemming nodes current) {number : Nat} {node : Node}
    (found : current[number]? = some node) :
    Fails (NodeFault nodes) (valueOf current number node) := by
  unfold valueOf
  cases stemming number node found with
  | @scalar tag own text was kept =>
    have text : scalarText current (current.size + 1) number = .ok text := by
      rw [scalarText, found]
    rw [text]
    exact scalarValue_fails number kept fun fault =>
      .scalar (Array.mem_of_getElem? was)
  | @sequence tag own items was kept =>
    have none : scalarText current (current.size + 1) number = .error .malformed := by
      rw [scalarText, found]
    rw [none]
    exact Yields.malformed
  | @mapping tag own entries others was kept _ =>
    have member := Array.mem_of_getElem? was
    refine (scalarText_fails number stemming).bind ?_
    rintro text ⟨other, spelled⟩
    split
    · next _ same =>
      obtain ⟨rfl, rfl⟩ := Node.mapping.inj same
      rcases kept with none | rfl
      · nomatch none
      · exact Or.inr (.timestamp member)
    · exact scalarValue_fails number kept fun fault fails => .standsFor member spelled fails

/-! ### Filling -/

/-- The nodes of a state of loading stem from the nodes, and it came about unless a node has a
fault. -/
def Loads (nodes : Array Node) (step : Except Fault Loading) : Prop :=
  Yields (fun loading => Stemming nodes loading.nodes) (NodeFault nodes) step

/-- Asking computes the value of a single node. -/
theorem ask_loads {loading : Loading} (stemming : Stemming nodes loading.nodes) (number : Nat) :
    Loads nodes (ask loading number) := by
  unfold ask
  split
  · exact stemming
  · exact Yields.malformed
  · next node _ found =>
    refine Yields.ite (fun _ => stemming) fun _ => ?_
    exact (valueOf_fails stemming found).bind fun _ => stemming

theorem askEntries_loads {loading : Loading} (stemming : Stemming nodes loading.nodes)
    (entries : List (Nat × Nat)) (before : List (Value × Nat)) :
    Yields (fun found => Stemming nodes found.1.nodes) (NodeFault nodes)
      (askEntries loading before entries) := by
  induction entries generalizing loading before with
  | nil => exact stemming
  | cons entry rest inductionHypothesis =>
    refine (ask_loads stemming entry.1).bind fun asked kept => ?_
    split
    · exact (ask_loads kept entry.2).bind fun _ after => inductionHypothesis after _
    · exact Yields.malformed

theorem askPairs_loads {loading : Loading} (stemming : Stemming nodes loading.nodes)
    (items : List Nat) :
    Yields (fun found => Stemming nodes found.1.nodes) (NodeFault nodes)
      (askPairs loading items) := by
  induction items generalizing loading with
  | nil => exact stemming
  | cons item rest inductionHypothesis =>
    refine (entriesAt_yields _ _).bind fun entries _ => ?_
    split
    · exact (ask_loads stemming _).bind fun _ key => (ask_loads key _).bind fun _ value =>
        (inductionHypothesis value).bind fun _ after => after
    · exact Yields.malformed

/-- A mapping is merged before its entries are asked for. -/
theorem fillEntries_loads {loading : Loading} (stemming : Stemming nodes loading.nodes)
    (number : Nat) :
    Yields (fun found => Stemming nodes found.1.nodes) (NodeFault nodes)
      (fillEntries loading number) :=
  (merge_keeps _ number stemming).bind fun _ kept => (entriesAt_yields _ _).bind fun entries _ =>
    askEntries_loads kept entries []

theorem fill_loads {loading : Loading} (stemming : Stemming nodes loading.nodes) (number : Nat) :
    Loads nodes (fill loading number) := by
  unfold fill
  split
  · exact (fillEntries_loads stemming number).bind fun _ after => after
  · exact (fillEntries_loads stemming number).bind fun _ after => after
  · refine (itemsAt_fails _ _).bind fun items => ?_
    have asked : Loads nodes (items.foldlM ask loading) :=
      Yields.foldlM items stemming fun _ item _ kept => ask_loads kept item
    exact asked.bind fun _ after => after
  · exact (itemsAt_fails _ _).bind fun items =>
      (askPairs_loads stemming items).bind fun _ after => after

/-- Collections are filled without other faults than those of nodes, however deep they lie. -/
theorem fillLevels_loads {loading : Loading} (stemming : Stemming nodes loading.nodes)
    (levels : Nat) : Loads nodes (fillLevels levels loading) := by
  induction levels generalizing loading with
  | zero => exact stemming
  | succ levels inductionHypothesis =>
    refine Yields.ite (fun _ => stemming) fun _ => ?_
    have filled :
        Loads nodes (loading.waiting.reverse.foldlM fill { loading with waiting := [] }) :=
      Yields.foldlM _ stemming fun _ number _ kept => fill_loads kept number
    exact filled.bind fun _ after => inductionHypothesis after

end

/-- Why a text has no value, other than that it is malformed: a place in it, or a node of its
graph. -/
inductive LoadFault (text : String) (fault : Fault) : Prop
  | place (found : TextFault text.toList fault)
  | node {reading : Reading Nat} (read : graphOf text.toList = .ok (some reading))
      (found : NodeFault reading.graph.nodes fault)

/-- A text without a value is malformed, or has a place or a node for the fault. -/
theorem load_fails (text : String) : Fails (LoadFault text) (load text) := by
  have graph := graphOf_fails text.toList
  unfold load
  cases read : graphOf text.toList with
  | error fault =>
    rw [read] at graph
    exact graph.imp_right .place
  | ok found =>
    cases found with
    | none => trivial
    | some reading =>
      have loads : Fails (NodeFault reading.graph.nodes) (do
          let loading ← fillLevels reading.graph.nodes.size (← ask
            { nodes := reading.graph.nodes,
              cells := Array.replicate reading.graph.nodes.size none } reading.value)
          return loading.valueAt (reading.graph.nodes.size + 1) [] reading.value) :=
        (ask_loads (stemming_self _) reading.value).bind fun _ kept =>
          (fillLevels_loads kept _).bind fun _ _ => trivial
      exact loads.imp (fun _ _ => trivial) fun _ => .node read

end GoApiDoc.Yaml
