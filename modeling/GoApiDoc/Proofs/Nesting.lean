/-
This file says which sources the reader accepts have balanced brackets. Six routines of the
reader go over brackets. Bracketed runs are skipped by counting, and groups, struct bodies and
types close every bracket that they open, so none of these can spoil the balance. Three places
are passed over without pairing anything: the length of an array, the rest of an import line, and
the initialisers of a value, which end where their own count is back at zero or with the tokens.

The functions below walk as the reader walks and collect these places as stops. A source that is
accepted is balanced exactly when the stops are covered and leave no excess; in particular it is
balanced when each of the stretches passed over is. It need not be: an initialiser that opens a
bracket and never closes it takes the rest of the source with it, declarations and all.
-/

import GoApiDoc.Proofs.Brackets
import GoApiDoc.Proofs.Lexing
import GoApiDoc.Proofs.Reading

namespace GoApiDoc.Go

/-! ### Brackets among the tokens -/

theorem Token.Proper.isOp {token : Token} {text : String} (proper : token.Proper)
    (same : token.is text) (unreserved : text ∉ keywords) (other : text ≠ ";") :
    token.isOp text := by
  unfold Token.is at same
  rw [Bool.and_eq_true, beq_iff_eq] at same
  obtain ⟨rfl, kind⟩ := same
  simp only [Bool.or_eq_true, beq_iff_eq] at kind
  obtain (kind | kind) | kind := kind
  · simp [Token.isOp, kind]
  · exact absurd (proper.semicolon kind) other
  · exact absurd (proper.keyword kind) unreserved

theorem Token.Proper.isOpener {token : Token} {text : String} (proper : token.Proper)
    (same : token.is text) (bracket : text ∈ ["(", "[", "\x7b"]) : token.isOpener := by
  have unreserved : ∀ text ∈ ["(", "[", "\x7b"], text ∉ keywords ∧ text ≠ ";" := by decide
  have op := proper.isOp same (unreserved text bracket).1 (unreserved text bracket).2
  simp only [Token.isOp, Bool.and_eq_true, beq_iff_eq] at op
  simp [Token.isOpener, op.1, op.2, bracket]

theorem Token.Proper.isCloser {token : Token} {text : String} (proper : token.Proper)
    (same : token.is text) (bracket : text ∈ [")", "]", "\x7d"]) : token.isCloser := by
  have unreserved : ∀ text ∈ [")", "]", "\x7d"], text ∉ keywords ∧ text ≠ ";" := by decide
  have op := proper.isOp same (unreserved text bracket).1 (unreserved text bracket).2
  simp only [Token.isOp, Bool.and_eq_true, beq_iff_eq] at op
  simp [Token.isCloser, op.1, op.2, bracket]

/-- A token of any other spelling does not move the level. -/
theorem Token.step_of_text {token : Token}
    (text : token.text ∉ ["(", "[", "\x7b", ")", "]", "\x7d"]) : token.step = 0 := by
  simp only [List.mem_cons, List.not_mem_nil, or_false, not_or] at text
  obtain ⟨round, square, curly, roundEnd, squareEnd, curlyEnd⟩ := text
  simp [Token.step, Token.isOpener, Token.isCloser, round, square, curly, roundEnd, squareEnd,
    curlyEnd]

theorem Token.step_of_is {token : Token} {text : String} (same : token.is text)
    (other : text ∉ ["(", "[", "\x7b", ")", "]", "\x7d"]) : token.step = 0 := by
  unfold Token.is at same
  rw [Bool.and_eq_true, beq_iff_eq] at same
  obtain ⟨rfl, -⟩ := same
  exact Token.step_of_text other

/-! ### Stretches that were read -/

/-- The stretches whose brackets are not paired: the length of an array, the rest of an import
line, and initialisers. -/
inductive PassedOver (tokens : List Token) : List Token → Prop
  | arrayLength {opener : Token} {rest : List Token} (place : opener :: rest <:+ tokens)
      (opens : opener.is "[") : PassedOver tokens (rest.takeWhile fun token => !token.is "]")
  | importLine {keyword : Token} {rest : List Token} (place : keyword :: rest <:+ tokens)
      (imports : keyword.is "import") :
      PassedOver tokens (rest.takeWhile fun token => !token.is ";")
  | values {mark : Token} {rest : List Token} (place : mark :: rest <:+ tokens)
      (marks : mark.is "=") : PassedOver tokens (rest.take (initialisers 0 [] rest).2)

theorem PassedOver.mono {tokens others stretch : List Token} (passed : PassedOver tokens stretch)
    (place : tokens <:+ others) : PassedOver others stretch := by
  cases passed with
  | arrayLength inside opens => exact .arrayLength (inside.trans place) opens
  | importLine inside imports => exact .importLine (inside.trans place) imports
  | values inside marks => exact .values (inside.trans place) marks

/-- The first `used` tokens are there, the stops tell all about them, and each stop is the place
behind a bracket or a stretch that is passed over. -/
structure Reads (depth : Nat) (tokens : List Token) (used : Nat) (stops : List Stop) : Prop where
  le_length : used ≤ tokens.length
  framed : Framed depth (tokens.take used) stops
  passed : ∀ stop ∈ stops, stop.tokens = [] ∨ PassedOver tokens stop.tokens

namespace Reads

theorem zero (depth : Nat) (tokens : List Token) : Reads depth tokens 0 [] where
  le_length := Nat.zero_le _
  framed := Framed.nil depth
  passed := by simp

theorem passed_of_suffix {depth used : Nat} {tokens others : List Token} {stops : List Stop}
    (reads : Reads depth tokens used stops) (place : tokens <:+ others) :
    ∀ stop ∈ stops, stop.tokens = [] ∨ PassedOver others stop.tokens :=
  fun stop member => (reads.passed stop member).imp_right fun passed => passed.mono place

theorem cons {depth used : Nat} {token : Token} {rest : List Token} {stops : List Stop}
    (step : token.step = 0) (reads : Reads depth rest used stops) :
    Reads depth (token :: rest) (used + 1) stops where
  le_length := Nat.succ_le_succ reads.le_length
  framed := (Framed.plain step).append reads.framed
  passed := reads.passed_of_suffix (List.suffix_cons token rest)

theorem append {depth first second : Nat} {tokens : List Token}
    {firstStops secondStops : List Stop} (firstReads : Reads depth tokens first firstStops)
    (secondReads : Reads depth (tokens.drop first) second secondStops) :
    Reads depth tokens (first + second) (firstStops ++ secondStops) where
  le_length := by
    have le := secondReads.le_length
    have before := firstReads.le_length
    rw [List.length_drop] at le
    omega
  framed := by
    rw [List.take_add]
    exact firstReads.framed.append secondReads.framed
  passed := by
    intro stop member
    obtain member | member := List.mem_append.mp member
    · exact firstReads.passed stop member
    · exact secondReads.passed_of_suffix (List.drop_suffix first tokens) stop member

/-- A stretch that is passed over behind a token that is no bracket. -/
theorem behind {depth used : Nat} {token : Token} {rest : List Token} (step : token.step = 0)
    (le : used ≤ rest.length) (passed : PassedOver (token :: rest) (rest.take used)) :
    Reads depth (token :: rest) (used + 1) [⟨depth, rest.take used⟩] where
  le_length := Nat.succ_le_succ le
  framed := (Framed.plain step).append (Framed.unpaired depth _)
  passed stop member := by
    obtain rfl := List.mem_singleton.mp member
    exact Or.inr passed

/-- A pair of brackets around framed tokens. -/
theorem bracketed {depth used : Nat} {opener closer : Token} {rest behind : List Token}
    {stops : List Stop} (opens : opener.isOpener)
    (framed : Framed (depth + 1) (rest.take used) stops)
    (passed : ∀ stop ∈ stops, stop.tokens = [] ∨ PassedOver (opener :: rest) stop.tokens)
    (next : rest.drop used = closer :: behind) (closes : closer.isCloser) :
    Reads depth (opener :: rest) (used + 2) (stops ++ [⟨depth, []⟩]) where
  le_length := by
    have left : (rest.drop used).length = behind.length + 1 := by rw [next, List.length_cons]
    rw [List.length_drop] at left
    rw [List.length_cons]
    omega
  framed := by
    have inside : (opener :: rest).take (used + 2) = opener :: (rest.take used ++ [closer]) := by
      rw [List.take_succ_cons, List.take_add, next, List.take_succ_cons, List.take_zero]
    rw [inside]
    exact Framed.enclosed opens framed closes
  passed := by
    intro stop member
    obtain member | member := List.mem_append.mp member
    · exact passed stop member
    · obtain rfl := List.mem_singleton.mp member
      exact Or.inl rfl

theorem enclosed {depth used : Nat} {opener closer : Token} {rest behind : List Token}
    {stops : List Stop} (opens : opener.isOpener) (reads : Reads (depth + 1) rest used stops)
    (next : rest.drop used = closer :: behind) (closes : closer.isCloser) :
    Reads depth (opener :: rest) (used + 2) (stops ++ [⟨depth, []⟩]) :=
  bracketed opens reads.framed (reads.passed_of_suffix (List.suffix_cons opener rest)) next closes

end Reads

/-- A bracketed run that is skipped is balanced, so it has no stop. -/
theorem reads_of_skipBalanced {depth used : Nat} {tokens inner : List Token}
    (read : skipBalanced tokens = .ok (inner, used)) :
    0 < used ∧ Reads depth tokens used [] := by
  obtain ⟨opener, rest, rfl, opens, inside, rfl⟩ := skipBalanced_eq_ok read
  obtain ⟨closer, behind, rfl, closes, stays, level⟩ := insideBrackets_eq_some inside
  refine ⟨Nat.succ_pos _, ⟨?_, ?_, by simp⟩⟩
  · simp only [List.length_cons, List.length_append]
    omega
  · have run : (opener :: (inner ++ closer :: behind)).take (inner.length + 2) =
        opener :: (inner ++ [closer]) := by
      rw [List.take_succ_cons, List.take_length_add_append, List.take_succ_cons, List.take_zero]
    rw [run]
    refine Framed.balanced (balanced_iff.mpr ?_)
    have opening := Token.step_of_isOpener opens
    have closing := Token.step_of_isCloser closes
    refine ⟨⟨Int.le_refl 0, stays_append.mpr ⟨?_, ?_⟩⟩, ?_⟩
    · refine stays.mono ?_
      omega
    · rw [level, opening]
      simp [Stays, closing]
    · simp [opening, closing, level]

/-- How many tokens a production used; none if it failed. -/
def usedBy : Except ReadFault Nat → Nat
  | .ok used => used
  | .error _ => 0

theorem usedBy_ok {read : Except ReadFault Nat} {used : Nat} (result : read = .ok used) :
    usedBy read = used := by
  rw [result]
  rfl

theorem usedBy_map_snd {Value : Type} {read : Except ReadFault (Value × Nat)} {value : Value}
    {used : Nat} (result : read = .ok (value, used)) : usedBy (read.map Prod.snd) = used := by
  rw [result]
  rfl

/-! ### Types -/

/-- The stops of the type that starts here. The length of an array is one, and so is the place
behind every bracket that the type closes itself. -/
def typeStops (depth : Nat) (tokens : List Token) : List Stop :=
  match tokens with
  | [] => []
  | token :: rest =>
    match token.kind with
    | .op =>
      if token.text = "*" then typeStops depth rest
      else if token.text = "(" then typeStops (depth + 1) rest ++ [⟨depth, []⟩]
      else if token.text = "[" then
        let length := rest.takeWhile fun token => !token.is "]"
        ⟨depth + 1, length⟩ :: ⟨depth, []⟩ :: typeStops depth (rest.drop (length.length + 1))
      else typeStops depth (rest.drop 1)
    | .keyword =>
      if token.text = "map" then
        let keyUsed := usedBy ((typeRef (rest.drop 1)).map Prod.snd)
        typeStops (depth + 1) (rest.drop 1) ++
          ⟨depth, []⟩ :: typeStops depth (rest.drop (keyUsed + 2))
      else if token.text = "chan" then
        typeStops depth (rest.drop (if nextIs "<-" rest then 1 else 0))
      else if token.text = "func" then
        let after := rest.drop (usedBy ((skipBalanced rest).map Prod.snd))
        if nextIs "(" after then [] else if startsType after then typeStops depth after else []
      else []
    | _ => []
termination_by tokens.length
decreasing_by all_goals (simp +zetaDelta only [List.length_drop, List.length_cons]; omega)

theorem proper_tail {token : Token} {rest : List Token}
    (proper : ∀ other ∈ token :: rest, other.Proper) : ∀ other ∈ rest, other.Proper :=
  fun other member => proper other (List.mem_cons_of_mem token member)

theorem proper_drop {tokens : List Token} (proper : ∀ token ∈ tokens, token.Proper) (count : Nat) :
    ∀ token ∈ tokens.drop count, token.Proper :=
  fun token member => proper token (List.mem_of_mem_drop member)

/-- What is spelled like a closing bracket and comes next is one. -/
theorem closer_of_nextIs {text : String} {tokens : List Token} {used : Nat}
    (proper : ∀ token ∈ tokens, token.Proper) (next : nextIs text (tokens.drop used))
    (bracket : text ∈ [")", "]", "\x7d"]) :
    ∃ closer behind, tokens.drop used = closer :: behind ∧ closer.isCloser := by
  obtain ⟨closer, behind, found, same⟩ := nextIs_eq_true.mp next
  have member : closer ∈ tokens.drop used := by
    rw [found]
    exact List.mem_cons_self
  exact ⟨closer, behind, found,
    Token.Proper.isCloser (proper_drop proper used closer member) same bracket⟩

/-- A run up to a token that is there is followed by that token. -/
theorem takeWhile_closed {tokens : List Token} {text : String}
    (closed : (tokens.takeWhile fun token => !token.is text).length ≠ tokens.length) :
    nextIs text (tokens.drop (tokens.takeWhile fun token => !token.is text).length) := by
  induction tokens with
  | nil => simp at closed
  | cons token rest inductionHypothesis =>
    cases same : token.is text with
    | true => simp [same, nextIs]
    | false =>
      simp only [List.takeWhile_cons, same, Bool.not_false, if_true, List.length_cons,
        List.drop_succ_cons] at closed ⊢
      exact inductionHypothesis fun equal => closed (by omega)

/-- The brackets around an array length: what stands between them is a stop, and so is the place
behind. -/
theorem reads_of_arrayLength {depth : Nat} {opener : Token} {rest length : List Token}
    (proper : ∀ token ∈ rest, token.Proper) (kind : opener.kind = .op) (text : opener.text = "[")
    (run : length = rest.takeWhile fun token => !token.is "]")
    (closed : length.length ≠ rest.length) :
    Reads depth (opener :: rest) (length.length + 2) ([⟨depth + 1, length⟩] ++ [⟨depth, []⟩]) := by
  subst run
  have opens : opener.isOpener := by simp [Token.isOpener, kind, text]
  have same : opener.is "[" := by simp [Token.is, kind, text]
  obtain ⟨closer, behind, next, closes⟩ :=
    closer_of_nextIs proper (takeWhile_closed closed) (by simp)
  have front := List.takeWhile_prefix (l := rest) fun token => !token.is "]"
  refine Reads.bracketed opens ?_ ?_ next closes
  · rw [← List.prefix_iff_eq_take.mp front]
    exact Framed.unpaired (depth + 1) _
  · intro stop member
    obtain rfl := List.mem_singleton.mp member
    exact Or.inr (.arrayLength List.suffix_rfl same)

theorem nextIs_cons (text : String) (token : Token) (rest : List Token) :
    nextIs text (token :: rest) = token.is text :=
  rfl

section

variable {depth used : Nat} {token : Token} {rest : List Token} {type : TypeRef}
  (proper : ∀ token ∈ rest, token.Proper)
  (shorter : ∀ (depth count : Nat) {type : TypeRef} {used : Nat},
    typeRef (rest.drop count) = .ok (type, used) →
      Reads depth (rest.drop count) used (typeStops depth (rest.drop count)))
  (form : TypeForm (token :: rest) type used)

include proper shorter form

/-- Pointers, types in parentheses, sequences and channels to receive from. -/
theorem reads_of_typeForm_op (op : token.kind = .op) :
    Reads depth (token :: rest) used (typeStops depth (token :: rest)) := by
  cases form with
  | pointer kind text inner =>
    rw [show typeStops depth (token :: rest) = typeStops depth rest by
      simp [typeStops, kind, text]]
    exact Reads.cons (Token.step_of_text (by simp [text])) (shorter depth 0 inner)
  | parenthesised kind text inner closed =>
    rw [show typeStops depth (token :: rest) = typeStops (depth + 1) rest ++ [⟨depth, []⟩] by
      simp [typeStops, kind, text]]
    have opens : token.isOpener := by simp [Token.isOpener, kind, text]
    obtain ⟨closer, others, next, closes⟩ := closer_of_nextIs proper closed (by simp)
    exact Reads.enclosed opens (shorter (depth + 1) 0 inner) next closes
  | @sequence _ _ length element used kind text run closed inner =>
    rw [show typeStops depth (token :: rest) = [⟨depth + 1, length⟩] ++ [⟨depth, []⟩] ++
        typeStops depth ((token :: rest).drop (length.length + 2)) by
      simp [typeStops, kind, text, run],
      show length.length + used + 2 = length.length + 2 + used by omega]
    exact (reads_of_arrayLength proper kind text run closed).append (shorter depth _ inner)
  | receiver kind text channel inner =>
    obtain ⟨keyword, tail, rfl, isChannel⟩ := nextIs_eq_true.mp channel
    rw [show typeStops depth (token :: keyword :: tail) = typeStops depth tail by
      simp [typeStops, kind, text]]
    exact Reads.cons (Token.step_of_text (by simp [text]))
      (Reads.cons (Token.step_of_is isChannel (by decide)) (shorter depth 1 inner))
  | mapping other | channel other | body other | results other | result other | noResult other
  | named other | qualified other | instantiated other | qualifiedInstantiated other =>
    nomatch op.symm.trans other

/-- Maps, channels, and the types whose body or parameters are skipped. -/
theorem reads_of_typeForm_keyword (keyword : token.kind = .keyword) :
    Reads depth (token :: rest) used (typeStops depth (token :: rest)) := by
  cases form with
  | @mapping _ _ key value keyUsed valueUsed kind text opened first closed second =>
    obtain ⟨opener, tail, rfl, isOpening⟩ := nextIs_eq_true.mp opened
    have opens : opener.isOpener :=
      Token.Proper.isOpener (proper opener List.mem_cons_self) isOpening (by simp)
    rw [show typeStops depth (token :: opener :: tail) =
        (typeStops (depth + 1) tail ++ [⟨depth, []⟩]) ++
          typeStops depth ((opener :: tail).drop (keyUsed + 2)) by
      simp only [List.drop_one, List.tail_cons] at first
      simp [typeStops, kind, text, usedBy_map_snd first]]
    obtain ⟨closer, others, next, closes⟩ :=
      closer_of_nextIs (proper_tail proper) closed (by simp)
    have enclosed := Reads.enclosed opens (shorter (depth + 1) 1 first) next closes
    rw [show keyUsed + valueUsed + 3 = keyUsed + 2 + valueUsed + 1 by omega]
    exact Reads.cons (Token.step_of_kind kind (by decide))
      (enclosed.append (shorter depth (keyUsed + 2) second))
  | @channel _ _ element arrow used kind text direction inner =>
    rw [show typeStops depth (token :: rest) = typeStops depth (rest.drop arrow) by
      simp [typeStops, kind, text, direction]]
    have reads := shorter depth arrow inner
    refine Reads.cons (Token.step_of_kind kind (by decide)) ?_
    split at direction
    · next arrows =>
      obtain ⟨sign, tail, rfl, isArrow⟩ := nextIs_eq_true.mp arrows
      subst direction
      exact Reads.cons (Token.step_of_is isArrow (by decide)) reads
    · subst direction
      exact reads
  | body kind text skip =>
    have none : typeStops depth (token :: rest) = [] := by
      obtain text | text := text
      · simp [typeStops, kind, text]
      · simp [typeStops, kind, text]
    rw [none]
    exact Reads.cons (Token.step_of_kind kind (by decide)) (reads_of_skipBalanced skip).2
  | results kind text skip opened skipResults =>
    rw [show typeStops depth (token :: rest) = [] ++ [] by
      simp [typeStops, kind, text, usedBy_map_snd skip, opened]]
    exact Reads.cons (Token.step_of_kind kind (by decide))
      ((reads_of_skipBalanced skip).2.append (reads_of_skipBalanced skipResults).2)
  | @result _ _ skipped type parameters used kind text skip unopened starts inner =>
    rw [show typeStops depth (token :: rest) = [] ++ typeStops depth (rest.drop parameters) by
      simp [typeStops, kind, text, usedBy_map_snd skip, unopened, starts]]
    exact Reads.cons (Token.step_of_kind kind (by decide))
      ((reads_of_skipBalanced skip).2.append (shorter depth parameters inner))
  | noResult kind text skip unopened unstarted =>
    rw [show typeStops depth (token :: rest) = [] by
      simp [typeStops, kind, text, usedBy_map_snd skip, unopened, unstarted]]
    exact Reads.cons (Token.step_of_kind kind (by decide)) (reads_of_skipBalanced skip).2
  | pointer other | parenthesised other | sequence other | receiver other
  | named other | qualified other | instantiated other | qualifiedInstantiated other =>
    nomatch keyword.symm.trans other

omit proper shorter in
/-- Names, with the package in front and the type arguments behind. -/
theorem reads_of_typeForm_ident (ident : token.kind = .ident) :
    Reads depth (token :: rest) used (typeStops depth (token :: rest)) := by
  cases form with
  | named kind unopened =>
    rw [show typeStops depth (token :: rest) = [] by simp [typeStops, kind]]
    exact Reads.cons (Token.step_of_kind kind (by decide)) (Reads.zero depth rest)
  | @qualified _ dot name rest packageKind isDot kind unopened =>
    rw [show typeStops depth (token :: dot :: name :: rest) = [] by
      simp [typeStops, packageKind]]
    exact Reads.cons (Token.step_of_kind packageKind (by decide)) (Reads.cons
      (Token.step_of_is isDot (by decide)) (Reads.cons (Token.step_of_kind kind (by decide))
        (Reads.zero depth rest)))
  | instantiated kind skip =>
    rw [show typeStops depth (token :: rest) = [] by simp [typeStops, kind], Nat.add_comm]
    exact Reads.cons (Token.step_of_kind kind (by decide)) (reads_of_skipBalanced skip).2
  | @qualifiedInstantiated _ dot name rest skipped used packageKind isDot kind skip =>
    rw [show typeStops depth (token :: dot :: name :: rest) = [] by
      simp [typeStops, packageKind], Nat.add_comm]
    exact Reads.cons (Token.step_of_kind packageKind (by decide)) (Reads.cons
      (Token.step_of_is isDot (by decide)) (Reads.cons (Token.step_of_kind kind (by decide))
        (reads_of_skipBalanced skip).2))
  | pointer other | parenthesised other | sequence other | receiver other
  | mapping other | channel other | body other | results other | result other | noResult other =>
    nomatch ident.symm.trans other

end

/-- A type that is read closes what it opens, up to its stops. The cases are the kinds of first
token; a shorter type inside is read from a proper rest of the tokens. -/
theorem reads_of_typeRef {depth used : Nat} {tokens : List Token} {type : TypeRef}
    (proper : ∀ token ∈ tokens, token.Proper) (read : typeRef tokens = .ok (type, used)) :
    Reads depth tokens used (typeStops depth tokens) := by
  induction tokens using drop_induction generalizing depth type used with
  | nil => simp [typeRef] at read
  | cons token rest behind =>
    have properRest := proper_tail proper
    have shorter : ∀ (depth count : Nat) {type : TypeRef} {used : Nat},
        typeRef (rest.drop count) = .ok (type, used) →
        Reads depth (rest.drop count) used (typeStops depth (rest.drop count)) :=
      fun depth count _ _ inner => behind count (proper_drop properRest count) inner
    have form := typeForm_of_typeRef read
    cases kind : token.kind with
    | op => exact reads_of_typeForm_op properRest shorter form kind
    | keyword => exact reads_of_typeForm_keyword properRest shorter form kind
    | ident => exact reads_of_typeForm_ident form kind
    | _ => simp [typeRef.eq_def, kind] at read

/-! ### Lists of items -/

/-- What is left behind an item that used at least its first token. -/
theorem drop_behind (token : Token) (rest : List Token) {used : Nat} (positive : 0 < used) :
    rest.drop (used - 1) = (token :: rest).drop used := by
  obtain ⟨count, rfl⟩ := Nat.exists_eq_succ_of_ne_zero (Nat.pos_iff_ne_zero.mp positive)
  rfl

/-- The stops of the items that follow, up to the token that closes their list. -/
def itemStops {Item : Type} (closer : String)
    (item : List Token → Except ReadFault (List Item × Nat)) (stops : List Token → List Stop)
    (tokens : List Token) : List Stop :=
  match tokens with
  | [] => []
  | token :: rest =>
    if token.is closer then []
    else if token.is ";" then itemStops closer item stops rest
    else stops (token :: rest) ++ itemStops closer item stops
      (rest.drop (usedBy ((item (token :: rest)).map Prod.snd) - 1))
termination_by tokens.length
decreasing_by all_goals (simp +zetaDelta only [List.length_drop, List.length_cons]; omega)

/-- The stops of a list of items between two brackets, the opening one coming next. -/
def groupStops {Item : Type} (closer : String)
    (item : List Token → Except ReadFault (List Item × Nat))
    (stops : Nat → List Token → List Stop) (depth : Nat) (tokens : List Token) : List Stop :=
  itemStops closer item (stops (depth + 1)) (tokens.drop 1) ++ [⟨depth, []⟩]

section Items

variable {Item : Type} {closer : String} {unclosed : ReadFault}
  {item : List Token → Except ReadFault (List Item × Nat)} {stops : Nat → List Token → List Stop}

/-- Items that each close what they open do so together; the token that closes the list is the
last one used. -/
theorem reads_of_itemsUntil {depth used : Nat} {tokens : List Token} {found : List Item}
    (each : ∀ {tokens : List Token} {own : List Item} {used : Nat},
      (∀ token ∈ tokens, token.Proper) → item tokens = .ok (own, used) →
        0 < used ∧ Reads depth tokens used (stops depth tokens))
    (proper : ∀ token ∈ tokens, token.Proper)
    (read : itemsUntil closer unclosed item tokens = .ok (found, used)) :
    ∃ before, used = before + 1 ∧ nextIs closer (tokens.drop before) ∧
      Reads depth tokens before (itemStops closer item (stops depth) tokens) := by
  rw [itemsUntil_eq_ok] at read
  induction read with
  | closed closes =>
    rw [itemStops, if_pos closes]
    exact ⟨0, rfl, closes, Reads.zero depth _⟩
  | separator goesOn ends _ inductionHypothesis =>
    obtain ⟨before, rfl, next, reads⟩ := inductionHypothesis (proper_tail proper)
    rw [itemStops, if_neg (ne_true_of_eq_false goesOn), if_pos ends]
    exact ⟨before + 1, rfl, next, Reads.cons (Token.step_of_is ends (by decide)) reads⟩
  | @item token rest own others ownUsed othersUsed goesOn starts readOwn _ _ inductionHypothesis =>
    obtain ⟨positive, readsOwn⟩ := each proper readOwn
    rw [drop_behind token rest positive] at inductionHypothesis
    obtain ⟨before, rfl, next, reads⟩ := inductionHypothesis (proper_drop proper _)
    rw [itemStops, if_neg (ne_true_of_eq_false goesOn), if_neg (ne_true_of_eq_false starts),
      usedBy_map_snd readOwn, drop_behind token rest positive]
    refine ⟨ownUsed + before, rfl, ?_, readsOwn.append reads⟩
    rw [← List.drop_drop]
    exact next

theorem reads_of_group {depth used : Nat} {opener : Token} {rest : List Token} {found : List Item}
    (each : ∀ {tokens : List Token} {own : List Item} {used : Nat},
      (∀ token ∈ tokens, token.Proper) → item tokens = .ok (own, used) →
        0 < used ∧ Reads (depth + 1) tokens used (stops (depth + 1) tokens))
    (proper : ∀ token ∈ rest, token.Proper) (opens : opener.isOpener)
    (bracket : closer ∈ [")", "]", "\x7d"])
    (read : itemsUntil closer unclosed item rest = .ok (found, used)) :
    Reads depth (opener :: rest) (used + 1)
      (groupStops closer item stops depth (opener :: rest)) := by
  obtain ⟨before, rfl, next, reads⟩ := reads_of_itemsUntil each proper read
  obtain ⟨closing, behind, found, closes⟩ := closer_of_nextIs proper next bracket
  exact Reads.enclosed opens reads found closes

end Items

/-! ### Struct fields -/

theorem reads_of_identifierList {depth used : Nat} {tokens : List Token} {names : List String}
    (read : identifierList tokens = .ok (names, used)) : 0 < used ∧ Reads depth tokens used [] := by
  rw [identifierList_eq_ok] at read
  induction read with
  | last kind ends =>
    exact ⟨Nat.one_pos, Reads.cons (Token.step_of_kind kind (by decide)) (Reads.zero depth _)⟩
  | comma kind separates _ reads =>
    exact ⟨Nat.succ_pos _, Reads.cons (Token.step_of_kind kind (by decide))
      (Reads.cons (Token.step_of_is separates (by decide)) reads.2)⟩

theorem reads_of_fieldTag {depth used : Nat} {tokens : List Token} {tag : Option Text}
    (read : fieldTag tokens = .ok (tag, used)) : Reads depth tokens used [] := by
  obtain ⟨-, rfl⟩ | ⟨token, rest, text, rfl, kind, -, -, rfl⟩ := fieldTag_eq_ok read
  · exact Reads.zero depth tokens
  · exact Reads.cons (Token.step_of_kind kind (by decide)) (Reads.zero depth rest)

/-- The stops of a field line: those of its type. -/
def fieldStops (depth : Nat) (tokens : List Token) : List Stop :=
  if startsEmbedded tokens then typeStops depth tokens
  else typeStops depth (tokens.drop (usedBy ((identifierList tokens).map Prod.snd)))

theorem reads_of_fieldDeclaration {depth used : Nat} {tokens : List Token} {fields : List Field}
    (proper : ∀ token ∈ tokens, token.Proper)
    (read : fieldDeclaration tokens = .ok (fields, used)) :
    0 < used ∧ Reads depth tokens used (fieldStops depth tokens) := by
  obtain ⟨embedded, type, typeUsed, tag, tagUsed, readType, readTag, -, rfl⟩ |
    ⟨named, names, namesUsed, type, typeUsed, tag, tagUsed, readNames, readType, readTag, -, rfl⟩ :=
    fieldDeclaration_eq_ok read
  · rw [fieldStops, if_pos embedded]
    have typed : Reads depth tokens typeUsed (typeStops depth tokens) :=
      reads_of_typeRef proper readType
    have tagged := typed.append (reads_of_fieldTag readTag)
    rw [List.append_nil] at tagged
    exact ⟨Nat.add_pos_left (pos_of_typeRef readType) _, tagged⟩
  · rw [fieldStops, if_neg (ne_true_of_eq_false named), usedBy_map_snd readNames]
    obtain ⟨positive, reads⟩ : _ ∧ Reads depth _ _ _ := reads_of_identifierList readNames
    have typed := reads.append (reads_of_typeRef (proper_drop proper _) readType)
    have tagged := typed.append (reads_of_fieldTag readTag)
    rw [List.nil_append, List.append_nil] at tagged
    exact ⟨Nat.add_pos_left (Nat.add_pos_left positive _) _, tagged⟩

/-! ### Type declarations -/

/-- The stops of what a type name stands for. -/
def typeBodyStops (depth : Nat) (tokens : List Token) : List Stop :=
  if nextIs "struct" tokens && nextIs "\x7b" (tokens.drop 1) then
    groupStops "\x7d" fieldDeclaration fieldStops depth (tokens.drop 1)
  else typeStops depth tokens

theorem reads_of_typeBody {depth used : Nat} {tokens : List Token} {fields : Option (List Field)}
    {underlying : Option TypeRef} (proper : ∀ token ∈ tokens, token.Proper)
    (read : typeBody tokens = .ok ((fields, underlying), used)) :
    Reads depth tokens used (typeBodyStops depth tokens) := by
  obtain ⟨keyword, rest, found, bodyUsed, rfl, isStruct, opened, readBody, -, -, rfl⟩ |
    ⟨other, type, readType, -, -⟩ := typeBody_eq_ok read
  · have struct : (nextIs "struct" (keyword :: rest) &&
        nextIs "\x7b" ((keyword :: rest).drop 1)) = true := by
      rw [Bool.and_eq_true]
      exact ⟨isStruct, opened⟩
    rw [typeBodyStops, if_pos struct]
    obtain ⟨opener, lines, linesUsed, rfl, isOpening, readLines, rfl⟩ := structFields_eq_ok readBody
    have opens : opener.isOpener := Token.Proper.isOpener
      (proper opener (List.mem_cons_of_mem _ List.mem_cons_self)) isOpening (by simp)
    exact Reads.cons (Token.step_of_is isStruct (by decide))
      (reads_of_group reads_of_fieldDeclaration (proper_tail (proper_tail proper)) opens (by simp)
        readLines)
  · rw [typeBodyStops, if_neg (ne_true_of_eq_false other)]
    exact reads_of_typeRef proper readType

/-- The stops of a type specification: those of what stands behind the name, the type parameters
and the mark of an alias. -/
def typeSpecStops (depth : Nat) (tokens : List Token) : List Stop :=
  let rest := tokens.drop 1
  let parameters := usedBy (skipTypeParameters rest)
  let mark := if nextIs "=" (rest.drop parameters) then 1 else 0
  typeBodyStops depth (rest.drop (parameters + mark))

theorem reads_of_skipTypeParameters {depth used : Nat} {tokens : List Token}
    (read : skipTypeParameters tokens = .ok used) : Reads depth tokens used [] := by
  obtain rfl | ⟨skipped, skip⟩ := skipTypeParameters_eq_ok read
  · exact Reads.zero depth tokens
  · exact (reads_of_skipBalanced skip).2

/-- A mark that may be there or not, and is no bracket. -/
theorem reads_of_mark {depth : Nat} {text : String} {tokens : List Token}
    (other : text ∉ ["(", "[", "\x7b", ")", "]", "\x7d"]) :
    Reads depth tokens (if nextIs text tokens then 1 else 0) [] := by
  split
  · next marked =>
    obtain ⟨mark, rest, rfl, isMark⟩ := nextIs_eq_true.mp marked
    exact Reads.cons (Token.step_of_is isMark other) (Reads.zero depth rest)
  · exact Reads.zero depth tokens

theorem reads_of_typeSpec {depth used : Nat} {doc groupDoc : String} {tokens : List Token}
    {found : TypeDeclaration} (proper : ∀ token ∈ tokens, token.Proper)
    (read : typeSpec doc groupDoc tokens = .ok (found, used)) :
    0 < used ∧ Reads depth tokens used (typeSpecStops depth tokens) := by
  obtain ⟨name, rest, parameters, mark, fields, underlying, bodyUsed, rfl, kind, readParameters,
    rfl, readBody, -, rfl⟩ := typeSpec_eq_ok read
  have spec : typeSpecStops depth (name :: rest) = typeBodyStops depth
      (rest.drop (parameters + if nextIs "=" (rest.drop parameters) then 1 else 0)) := by
    simp only [typeSpecStops, List.drop_one, List.tail_cons, usedBy_ok readParameters]
  rw [spec]
  have marked : Reads depth (rest.drop parameters) (if nextIs "=" _ then 1 else 0) [] :=
    reads_of_mark (by decide)
  have head := (reads_of_skipTypeParameters readParameters).append marked
  have body := head.append (reads_of_typeBody (proper_drop (proper_tail proper) _) readBody)
  have whole := Reads.cons (Token.step_of_kind kind (by decide)) body
  rw [Nat.add_right_comm] at whole
  exact ⟨Nat.add_pos_left (Nat.succ_pos _) _, whole⟩

/-- The stops of a type declaration behind its keyword. -/
def typeDeclarationStops (docs : Docs) (keyword : Token) (tokens : List Token) : List Stop :=
  if nextIs "(" tokens then
    groupStops ")" (fun tokens =>
      single (typeSpec (docs.aboveNext tokens) (docs.above keyword.line) tokens)) typeSpecStops 0
      tokens
  else typeSpecStops 0 tokens

/-- A parenthesis that comes next opens. -/
theorem opens_of_is {opener : Token} {rest : List Token}
    (proper : ∀ token ∈ opener :: rest, token.Proper) (same : opener.is "(") : opener.isOpener :=
  Token.Proper.isOpener (proper opener List.mem_cons_self) same (by simp)

theorem reads_of_typeDeclaration {docs : Docs} {keyword : Token} {tokens : List Token}
    {found : List TypeDeclaration} {used : Nat} (proper : ∀ token ∈ tokens, token.Proper)
    (read : typeDeclaration docs keyword tokens = .ok (found, used)) :
    Reads 0 tokens used (typeDeclarationStops docs keyword tokens) := by
  obtain ⟨opener, rest, group, rfl, isOpening, readGroup, rfl⟩ | ⟨alone, spec, readSpec, -⟩ :=
    typeDeclaration_eq_ok read
  · rw [typeDeclarationStops, nextIs_cons, if_pos isOpening]
    refine reads_of_group ?_ (proper_tail proper) (opens_of_is proper isOpening) (by simp) readGroup
    intro tokens own used properItem readItem
    obtain ⟨spec, readSpec, -⟩ := single_eq_ok.mp readItem
    exact reads_of_typeSpec properItem readSpec
  · rw [typeDeclarationStops, if_neg (ne_true_of_eq_false alone)]
    exact (reads_of_typeSpec proper readSpec).2

/-! ### Value declarations -/

theorem initialisers_le_length (depth : Int) (current tokens : List Token) :
    (initialisers depth current tokens).2 ≤ tokens.length := by
  induction tokens generalizing depth current with
  | nil => simp [initialisers]
  | cons token rest inductionHypothesis =>
    rw [initialisers]
    split
    · exact Nat.zero_le _
    · split
      · exact Nat.succ_le_succ (inductionHypothesis _ _)
      · exact Nat.succ_le_succ (inductionHypothesis _ _)

/-- The stops of the type that may stand behind the names of a value specification. -/
def valueTypeStops (depth : Nat) (tokens : List Token) : List Stop :=
  if nextIs "=" tokens || nextIs ";" tokens || nextIs ")" tokens then [] else typeStops depth tokens

theorem reads_of_skipValueType {depth used : Nat} {tokens : List Token}
    (proper : ∀ token ∈ tokens, token.Proper) (read : skipValueType tokens = .ok used) :
    Reads depth tokens used (valueTypeStops depth tokens) := by
  obtain ⟨ends, rfl⟩ | ⟨typed, type, readType⟩ := skipValueType_eq_ok read
  · rw [valueTypeStops, if_pos ends]
    exact Reads.zero depth tokens
  · rw [valueTypeStops, if_neg (ne_true_of_eq_false typed)]
    exact reads_of_typeRef proper readType

/-- The stop that the initialisers are, if there are any. -/
def initialiserStops (depth : Nat) (tokens : List Token) : List Stop :=
  if nextIs "=" tokens then
    [⟨depth, (tokens.drop 1).take (initialisers 0 [] (tokens.drop 1)).2⟩]
  else []

/-- The stops of a value specification: those of its type, and its initialisers. -/
def valueSpecStops (depth : Nat) (tokens : List Token) : List Stop :=
  let typed := tokens.drop (usedBy ((identifierList tokens).map Prod.snd))
  valueTypeStops depth typed ++ initialiserStops depth (typed.drop (usedBy (skipValueType typed)))

theorem reads_of_valueSpec {depth used : Nat} {tokens : List Token} {found : ValueSpec}
    (proper : ∀ token ∈ tokens, token.Proper) (read : valueSpec tokens = .ok (found, used)) :
    0 < used ∧ Reads depth tokens used (valueSpecStops depth tokens) := by
  obtain ⟨names, namesUsed, typeUsed, readNames, readType, branch⟩ := valueSpec_eq_ok read
  simp only [valueSpecStops, usedBy_map_snd readNames, usedBy_ok readType, List.drop_drop]
  obtain ⟨positive, namesReads⟩ : _ ∧ Reads depth _ _ _ := reads_of_identifierList readNames
  have head := namesReads.append (reads_of_skipValueType (proper_drop proper _) readType)
  rw [List.nil_append] at head
  obtain ⟨mark, rest, behind, isMark, -, rfl⟩ | ⟨unmarked, -, rfl⟩ := branch
  · refine ⟨Nat.add_pos_left (Nat.succ_pos _) _, ?_⟩
    rw [Nat.add_assoc, Nat.add_comm 1]
    refine head.append ?_
    rw [behind, initialiserStops, nextIs_cons, if_pos isMark]
    exact Reads.behind (Token.step_of_is isMark (by decide)) (initialisers_le_length 0 [] rest)
      (.values List.suffix_rfl isMark)
  · rw [initialiserStops, if_neg (ne_true_of_eq_false unmarked), List.append_nil]
    exact ⟨Nat.add_pos_left positive _, head⟩

/-- The stops of a value declaration behind its keyword. -/
def valueDeclarationStops (tokens : List Token) : List Stop :=
  if nextIs "(" tokens then
    groupStops ")" (fun tokens => single (valueSpec tokens)) valueSpecStops 0 tokens
  else valueSpecStops 0 tokens

theorem reads_of_valueDeclaration {docs : Docs} {keyword : ValueKeyword} {line used : Nat}
    {tokens : List Token} {found : ValueDeclaration} (proper : ∀ token ∈ tokens, token.Proper)
    (read : valueDeclaration docs keyword line tokens = .ok (found, used)) :
    Reads 0 tokens used (valueDeclarationStops tokens) := by
  obtain ⟨specs, -, branch⟩ := valueDeclaration_eq_ok read
  obtain ⟨opener, rest, group, rfl, isOpening, readGroup, rfl⟩ | ⟨alone, spec, readSpec, -⟩ :=
    branch
  · rw [valueDeclarationStops, nextIs_cons, if_pos isOpening]
    refine reads_of_group ?_ (proper_tail proper) (opens_of_is proper isOpening) (by simp) readGroup
    intro tokens own used properItem readItem
    obtain ⟨spec, readSpec, -⟩ := single_eq_ok.mp readItem
    exact reads_of_valueSpec properItem readSpec
  · rw [valueDeclarationStops, if_neg (ne_true_of_eq_false alone)]
    exact (reads_of_valueSpec proper readSpec).2

/-! ### Functions -/

/-- The stops of the results of a function. -/
def resultStops (tokens : List Token) : List Stop :=
  if nextIs "(" tokens then [] else if startsType tokens then typeStops 0 tokens else []

theorem reads_of_skipResults {used : Nat} {tokens : List Token}
    (proper : ∀ token ∈ tokens, token.Proper) (read : skipResults tokens = .ok used) :
    Reads 0 tokens used (resultStops tokens) := by
  obtain ⟨opened, skipped, skip⟩ | ⟨unopened, starts, type, readType⟩ |
    ⟨unopened, unstarted, rfl⟩ := skipResults_eq_ok read
  · rw [resultStops, if_pos opened]
    exact (reads_of_skipBalanced skip).2
  · rw [resultStops, if_neg (ne_true_of_eq_false unopened), if_pos starts]
    exact reads_of_typeRef proper readType
  · rw [resultStops, if_neg (ne_true_of_eq_false unopened), if_neg (ne_true_of_eq_false unstarted)]
    exact Reads.zero 0 tokens

theorem reads_of_skipIfNext {used : Nat} {bracket : String} {tokens : List Token}
    (read : skipIfNext bracket tokens = .ok used) : Reads 0 tokens used [] := by
  obtain rfl | ⟨skipped, skip⟩ := skipIfNext_eq_ok read
  · exact Reads.zero 0 tokens
  · exact (reads_of_skipBalanced skip).2

theorem reads_of_receiver {used : Nat} {tokens : List Token} {found : Option String}
    (read : receiver tokens = .ok (found, used)) : Reads 0 tokens used [] := by
  obtain ⟨-, -, rfl⟩ | ⟨skipped, skip, -⟩ := receiver_eq_ok read
  · exact Reads.zero 0 tokens
  · exact (reads_of_skipBalanced skip).2

/-- The stops of a function behind its keyword: those of its results. -/
def functionStops (tokens : List Token) : List Stop :=
  let signature := tokens.drop (usedBy ((receiver tokens).map Prod.snd) + 1)
  let typeParameters := usedBy (skipIfNext "[" signature)
  let parameters := usedBy (skipParameters (signature.drop typeParameters))
  resultStops (signature.drop (typeParameters + parameters))

theorem reads_of_functionDeclaration {docs : Docs} {keyword : Token} {tokens : List Token}
    {found : FunctionDeclaration} {used : Nat} (proper : ∀ token ∈ tokens, token.Proper)
    (read : functionDeclaration docs keyword tokens = .ok (found, used)) :
    Reads 0 tokens used (functionStops tokens) := by
  obtain ⟨receiverText, receiverUsed, name, signature, typeParameters, parameters, results, body,
    readReceiver, behind, kind, readTypeParameters, readParameters, readResults, readBody, -,
    rfl⟩ := functionDeclaration_eq_ok read
  have start : tokens.drop (receiverUsed + 1) = signature := by
    rw [← List.drop_drop, behind, List.drop_one, List.tail_cons]
  have properSignature : ∀ token ∈ signature, token.Proper := start ▸ proper_drop proper _
  have stops : functionStops tokens =
      resultStops (signature.drop (typeParameters + parameters)) := by
    simp only [functionStops, usedBy_map_snd readReceiver, start, usedBy_ok readTypeParameters,
      usedBy_ok readParameters]
  obtain ⟨skipped, skip⟩ := skipParameters_eq_ok readParameters
  have lists := (reads_of_skipIfNext readTypeParameters).append (reads_of_skipBalanced skip).2
  have head := lists.append (reads_of_skipResults (proper_drop properSignature _) readResults)
  have whole := head.append (reads_of_skipIfNext readBody)
  rw [List.append_nil, List.append_nil, List.nil_append] at whole
  have named : Reads 0 (tokens.drop receiverUsed) _ _ :=
    behind.symm ▸ Reads.cons (Token.step_of_kind kind (by decide)) whole
  rw [stops, show receiverUsed + 1 + (typeParameters + parameters + results) + body =
    receiverUsed + (typeParameters + parameters + results + body + 1) by omega]
  exact (reads_of_receiver readReceiver).append named

/-! ### Files -/

/-- The stops of the declaration, package clause or import whose keyword comes first. -/
def topLevelStops (docs : Docs) (keyword : Token) (rest : List Token) : List Stop :=
  if keyword.text = "import" then
    if nextIs "(" rest then [] else [⟨0, rest.takeWhile fun token => !token.is ";"⟩]
  else if keyword.text = "type" then typeDeclarationStops docs keyword rest
  else if keyword.text = "const" ∨ keyword.text = "var" then valueDeclarationStops rest
  else if keyword.text = "func" then functionStops rest
  else []

theorem reads_of_topLevel {docs : Docs} {keyword : Token} {rest : List Token}
    {found : List Declaration} {used : Nat} (proper : ∀ token ∈ rest, token.Proper)
    (read : topLevel docs keyword rest = .ok (found, used)) :
    0 < used ∧ Reads 0 (keyword :: rest) used (topLevelStops docs keyword rest) := by
  obtain ⟨kind, form⟩ := topForm_of_topLevel read
  have step : keyword.step = 0 := Token.step_of_kind kind (by decide)
  cases form with
  | @package name tail text named nameKind =>
    subst named
    rw [show topLevelStops docs keyword (name :: tail) = [] by simp [topLevelStops, text]]
    exact ⟨Nat.succ_pos _, Reads.cons step
      (Reads.cons (Token.step_of_kind nameKind (by decide)) (Reads.zero 0 tail))⟩
  | @importGroup skipped used text opened skip =>
    rw [show topLevelStops docs keyword rest = [] by simp [topLevelStops, text, opened]]
    exact ⟨Nat.succ_pos _, Reads.cons step (reads_of_skipBalanced skip).2⟩
  | importLine text unopened =>
    rw [show topLevelStops docs keyword rest = [⟨0, rest.takeWhile fun token => !token.is ";"⟩] by
      simp [topLevelStops, text, unopened]]
    have front := List.takeWhile_prefix (l := rest) fun token => !token.is ";"
    have imports : keyword.is "import" := by simp [Token.is, kind, text]
    have line : PassedOver (keyword :: rest) _ := .importLine List.suffix_rfl imports
    have run := List.prefix_iff_eq_take.mp front
    have reads : Reads 0 (keyword :: rest) _ _ := Reads.behind step front.length_le (run ▸ line)
    rw [← run] at reads
    exact ⟨Nat.succ_pos _, reads⟩
  | @type found used text readType =>
    rw [show topLevelStops docs keyword rest = typeDeclarationStops docs keyword rest by
      simp [topLevelStops, text]]
    exact ⟨Nat.succ_pos _, Reads.cons step (reads_of_typeDeclaration proper readType)⟩
  | @value valueKeyword found used text readValue =>
    have stops : topLevelStops docs keyword rest = valueDeclarationStops rest := by
      cases valueKeyword with
      | const => simp [topLevelStops, text, ValueKeyword.text]
      | var => simp [topLevelStops, text, ValueKeyword.text]
    rw [stops]
    exact ⟨Nat.succ_pos _, Reads.cons step (reads_of_valueDeclaration proper readValue)⟩
  | @function found used text readFunction =>
    rw [show topLevelStops docs keyword rest = functionStops rest by simp [topLevelStops, text]]
    exact ⟨Nat.succ_pos _, Reads.cons step (reads_of_functionDeclaration proper readFunction)⟩

/-- The stops of all declarations that follow. -/
def declarationStops (docs : Docs) (tokens : List Token) : List Stop :=
  match tokens with
  | [] => []
  | token :: rest =>
    if token.kind = .semicolon then declarationStops docs rest
    else topLevelStops docs token rest ++ declarationStops docs
      (rest.drop (usedBy ((topLevel docs token rest).map Prod.snd) - 1))
termination_by tokens.length
decreasing_by all_goals (simp only [List.length_drop, List.length_cons]; omega)

theorem reads_of_declarations {docs : Docs} {tokens : List Token} {found : List Declaration}
    (proper : ∀ token ∈ tokens, token.Proper) (read : declarations docs tokens = .ok found) :
    Reads 0 tokens tokens.length (declarationStops docs tokens) := by
  rw [declarations_eq_ok] at read
  induction read with
  | ended =>
    rw [declarationStops]
    exact Reads.zero 0 []
  | separator semicolon _ reads =>
    rw [declarationStops, if_pos semicolon]
    exact Reads.cons (Token.step_of_kind semicolon (by decide)) (reads (proper_tail proper))
  | @topLevel token rest own others used starts readOwn _ _ inductionHypothesis =>
    obtain ⟨positive, readsOwn⟩ := reads_of_topLevel (proper_tail proper) readOwn
    rw [drop_behind token rest positive] at inductionHypothesis
    have reads := readsOwn.append (inductionHypothesis (proper_drop proper _))
    rw [List.length_drop, Nat.add_sub_cancel' readsOwn.le_length] at reads
    rw [declarationStops, if_neg starts, usedBy_map_snd readOwn, drop_behind token rest positive]
    exact reads

/-- The places of a source at which the reader leaves the balance open. -/
def Layout.stops (layout : Layout) : List Stop :=
  declarationStops (docsOf layout.comments) layout.tokens

/-- A source that is accepted is balanced exactly when its stops are covered and leave no excess.
Every stop with tokens is an array length, the rest of an import line or a run of initialisers, and
the source is balanced whenever each of them is balanced by itself. -/
theorem readSource_balanced_iff (source : String) (found : List Declaration)
    (accepted : readSource source = .ok found) :
    ∃ layout, layoutOf source = .ok layout ∧
      (Balanced layout.tokens ↔ Covered 0 layout.stops ∧ excessOf layout.stops = 0) ∧
      (∀ stop ∈ layout.stops, stop.tokens = [] ∨ PassedOver layout.tokens stop.tokens) ∧
      ((∀ stop ∈ layout.stops, Balanced stop.tokens) → Balanced layout.tokens) := by
  obtain ⟨layout, laid, read⟩ := readSource_eq_ok.mp accepted
  have reads := reads_of_declarations (proper_of_layoutOf laid) read
  have framed : Framed 0 layout.tokens layout.stops := by
    have whole := reads.framed
    rw [List.take_length] at whole
    exact whole
  refine ⟨layout, laid, framed.balanced_iff_covered, reads.passed, ?_⟩
  intro balanced
  exact framed.balanced_iff_covered.mpr (covered_of_balanced balanced)

/-- The statement at a source with two array lengths that are unbalanced each by itself. -/
theorem readSource_balanced_iff_lengths :
    let source := "package p\n\ntype T struct \x7b\n\tA [(]int\n\tB [)]int\n\x7d\n"
    let fields : List Field := [⟨"A", .sequence (.named "int") (some "("), none, false⟩,
      ⟨"B", .sequence (.named "int") (some ")"), none, false⟩]
    let found : List Declaration := [.type { name := "T", fields := some fields, line := 3 }]
    readSource source = .ok found ∧ ∃ layout, layoutOf source = .ok layout ∧
      (Balanced layout.tokens ↔ Covered 0 layout.stops ∧ excessOf layout.stops = 0) ∧
      (∀ stop ∈ layout.stops, stop.tokens = [] ∨ PassedOver layout.tokens stop.tokens) ∧
      ((∀ stop ∈ layout.stops, Balanced stop.tokens) → Balanced layout.tokens) := by
  intro source fields found
  have accepted : readSource source = .ok found := eq_ok_of_toOption (by decide +kernel)
  exact ⟨accepted, readSource_balanced_iff source found accepted⟩

/-- An initialiser that opens a parenthesis takes the function behind it along: the source is
accepted with the variable alone, and its brackets are not balanced. -/
theorem open_initialiser_unbalanced :
    let source := "package p\n\nvar x = (\n\nfunc f() \x7b\x7d\n"
    readSource source = .ok [.value ⟨.var, "", [⟨["x"], ["(func f()\x7b\x7d;"]⟩], 3⟩] ∧
      ∃ layout, layoutOf source = .ok layout ∧ ¬ Balanced layout.tokens := by
  intro source
  have laid : layoutOf source = .ok ⟨[⟨.keyword, "package", 1⟩, ⟨.ident, "p", 1⟩,
      .terminator 1, ⟨.keyword, "var", 3⟩, ⟨.ident, "x", 3⟩, ⟨.op, "=", 3⟩, ⟨.op, "(", 3⟩,
      ⟨.keyword, "func", 5⟩, ⟨.ident, "f", 5⟩, ⟨.op, "(", 5⟩, ⟨.op, ")", 5⟩, ⟨.op, "\x7b", 5⟩,
      ⟨.op, "\x7d", 5⟩, .terminator 5], []⟩ := eq_ok_of_toOption (by decide +kernel)
  exact ⟨eq_ok_of_toOption (by decide +kernel), _, laid, by decide +kernel⟩

end GoApiDoc.Go
