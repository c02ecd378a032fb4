/-
This file says which comments become the documentation of a declaration. The reader keeps tokens
and comments in two lists and looks documentation up by line, so the order in which they stand in
the source is lost. Here the source is laid out once more as one list of pieces, tokens and comments
in their order, from which both lists are taken.

The documentation of a declaration is the text of a group: comments on lines of their own, each
starting no later than the line behind the one before, the last one ending on the line above the
first token of the declaration. A group is not always free of tokens. A comment counts as standing
on a line of its own if no token stands before it on that line; what stands behind it is not looked
at, and neither is what stands before the declaration on its own line. These are the only places
where tokens can get in between.
-/

import GoApiDoc.Proofs.Locality
import Mathlib.Data.List.Forall2

namespace GoApiDoc.Go

/-! ### Pieces -/

/-- A token or a comment. -/
inductive Piece
  | token (token : Token)
  | comment (comment : Comment)
  deriving DecidableEq, Repr

/-- The token that the piece is, if it is one. -/
def Piece.token? : Piece → Option Token
  | .token found => some found
  | .comment _ => none

/-- The comment that the piece is, if it is one. -/
def Piece.comment? : Piece → Option Comment
  | .token _ => none
  | .comment found => some found

/-- The tokens among the pieces. -/
def tokensOf (pieces : List Piece) : List Token :=
  pieces.filterMap Piece.token?

/-- The comments among the pieces. -/
def commentsOf (pieces : List Piece) : List Comment :=
  pieces.filterMap Piece.comment?

/-- Lays out the lexemes that follow as pieces. A semicolon that a line break inside a block comment
puts in stands before the comment. -/
def piecesFrom (ends : Bool) (tokenLine line : Nat) : List Lexeme → List Piece
  | [] => (terminators ends line).map .token
  | lexeme :: rest =>
    let next := lexeme.line + lexeme.lineBreaks
    match lexeme.shape with
    | .blank => piecesFrom ends tokenLine next rest
    | .newline =>
      (terminators ends lexeme.line).map .token ++ piecesFrom false tokenLine next rest
    | .lineComment =>
      .comment ⟨lexeme.text, lexeme.line, lexeme.line, tokenLine != lexeme.line⟩ ::
        piecesFrom ends tokenLine next rest
    | .blockComment =>
      let breaks := lexeme.lineBreaks != 0
      (terminators (breaks && ends) lexeme.line).map .token ++
        .comment ⟨lexeme.text, lexeme.line, next, tokenLine != lexeme.line⟩ ::
        piecesFrom (ends && !breaks) tokenLine next rest
    | .token kind =>
      let token : Token := ⟨kind, String.ofList lexeme.text, lexeme.line⟩
      .token token :: piecesFrom token.endsStatement next next rest

/-- The pieces of a source. -/
def piecesOf (source : String) : List Piece :=
  match lexemes source.toList with
  | .error _ => []
  | .ok found => piecesFrom false 0 1 found

section

variable (first second : List Piece)

@[simp] theorem tokensOf_append : tokensOf (first ++ second) = tokensOf first ++ tokensOf second :=
  List.filterMap_append

@[simp] theorem commentsOf_append :
    commentsOf (first ++ second) = commentsOf first ++ commentsOf second :=
  List.filterMap_append

@[simp] theorem tokensOf_token (token : Token) :
    tokensOf (.token token :: first) = token :: tokensOf first :=
  rfl

@[simp] theorem commentsOf_token (token : Token) :
    commentsOf (.token token :: first) = commentsOf first :=
  rfl

@[simp] theorem commentsOf_comment (comment : Comment) :
    commentsOf (.comment comment :: first) = comment :: commentsOf first :=
  rfl

end

theorem piecesOf_terminators (ends : Bool) (line : Nat) :
    tokensOf ((terminators ends line).map .token) = terminators ends line ∧
      commentsOf ((terminators ends line).map .token) = [] := by
  cases ends with
  | true => exact ⟨rfl, rfl⟩
  | false => exact ⟨rfl, rfl⟩

theorem Layout.endingStatement_terminators (ends : Bool) (line : Nat) (layout : Layout) :
    endingStatement ends line layout =
      ⟨terminators ends line ++ layout.tokens, layout.comments⟩ := by
  cases ends with
  | true => rfl
  | false => rfl

/-- The layout is taken from the pieces. -/
theorem arrange_eq_pieces (ends : Bool) (tokenLine line : Nat) (lexemes : List Lexeme) :
    Layout.arrange ends tokenLine line lexemes =
      ⟨tokensOf (piecesFrom ends tokenLine line lexemes),
        commentsOf (piecesFrom ends tokenLine line lexemes)⟩ := by
  induction lexemes generalizing ends tokenLine line with
  | nil =>
    rw [piecesFrom, (piecesOf_terminators ends line).1, (piecesOf_terminators ends line).2,
      Layout.arrange, Layout.endingStatement_terminators, List.append_nil]
  | cons lexeme rest inductionHypothesis =>
    rw [Layout.arrange, piecesFrom]
    cases lexeme.shape with
    | blank => exact inductionHypothesis _ _ _
    | newline =>
      simp only [inductionHypothesis, Layout.endingStatement_terminators, tokensOf_append,
        commentsOf_append, piecesOf_terminators, List.nil_append]
    | lineComment =>
      simp only [inductionHypothesis]
      rfl
    | blockComment =>
      simp only [inductionHypothesis, Layout.endingStatement_terminators, tokensOf_append,
        commentsOf_append, piecesOf_terminators, List.nil_append]
      rfl
    | token kind =>
      simp only [inductionHypothesis]
      rfl

theorem layoutOf_eq_pieces {source : String} {layout : Layout}
    (laid : layoutOf source = .ok layout) :
    layout = ⟨tokensOf (piecesOf source), commentsOf (piecesOf source)⟩ := by
  obtain ⟨found, cut, rfl⟩ := layoutOf_eq_ok.mp laid
  rw [piecesOf, lexemes, cut]
  exact arrange_eq_pieces false 0 1 found

/-! ### The order of the lines -/

/-- The line on which the piece starts. -/
def Piece.first : Piece → Nat
  | .token own => own.line
  | .comment own => own.first

/-- How the lines of a piece and of a later one lie to each other. A comment ends no later than what
follows it starts, and a token starts before any comment behind it that stands on a line of its
own. -/
def Piece.Precedes : Piece → Piece → Prop
  | .comment own, later => own.last ≤ later.first
  | .token own, .token later => own.line ≤ later.line
  | .token own, .comment later =>
    own.line ≤ later.first ∧ (later.ownLine → own.line < later.first)

/-- The pieces start on this line or later, those comments among them that stand on a line of their
own behind the line of the last token, and their lines are in order. -/
structure Ordered (tokenLine line : Nat) (pieces : List Piece) : Prop where
  start : ∀ piece ∈ pieces, line ≤ piece.first
  own : ∀ comment, .comment comment ∈ pieces → comment.ownLine → tokenLine < comment.first
  order : pieces.Pairwise Piece.Precedes

namespace Ordered

theorem nil (tokenLine line : Nat) : Ordered tokenLine line [] :=
  ⟨nofun, nofun, .nil⟩

theorem earlier {tokenLine line next : Nat} {pieces : List Piece}
    (ordered : Ordered tokenLine next pieces) (le : line ≤ next) :
    Ordered tokenLine line pieces :=
  ⟨fun piece member => Nat.le_trans le (ordered.start piece member), ordered.own, ordered.order⟩

theorem token {tokenLine reached line next : Nat} {pieces : List Piece} {token : Token}
    (ordered : Ordered reached next pieces) (starts : token.line = line) (le : line ≤ next)
    (tokenLe : tokenLine ≤ reached) (lineLe : line ≤ reached) :
    Ordered tokenLine line (.token token :: pieces) := by
  refine ⟨fun piece member => ?_, fun comment member own => ?_, ?_⟩
  · obtain rfl | member := List.mem_cons.mp member
    · exact Nat.le_of_eq starts.symm
    · exact Nat.le_trans le (ordered.start piece member)
  · obtain same | member := List.mem_cons.mp member
    · nomatch same
    · exact Nat.lt_of_le_of_lt tokenLe (ordered.own comment member own)
  · refine List.pairwise_cons.mpr ⟨fun later member => ?_, ordered.order⟩
    have behind := ordered.start later member
    cases later with
    | token later => exact Nat.le_trans (Nat.le_of_eq starts) (Nat.le_trans le behind)
    | comment later =>
      refine ⟨Nat.le_trans (Nat.le_of_eq starts) (Nat.le_trans le behind), fun own => ?_⟩
      have less := ordered.own later member own
      omega

theorem comment {tokenLine line : Nat} {pieces : List Piece} {comment : Comment}
    (ordered : Ordered tokenLine comment.last pieces) (starts : comment.first = line)
    (le : comment.first ≤ comment.last) (ownLine : comment.ownLine → tokenLine < line) :
    Ordered tokenLine line (.comment comment :: pieces) := by
  refine ⟨fun piece member => ?_, fun other member own => ?_, ?_⟩
  · obtain rfl | member := List.mem_cons.mp member
    · exact Nat.le_of_eq starts.symm
    · have behind := ordered.start piece member
      omega
  · obtain same | member := List.mem_cons.mp member
    · obtain rfl := Piece.comment.inj same
      rw [starts]
      exact ownLine own
    · exact ordered.own other member own
  · exact List.pairwise_cons.mpr ⟨ordered.start, ordered.order⟩

theorem terminators {ends : Bool} {tokenLine line next : Nat} {pieces : List Piece}
    (ordered : Ordered tokenLine next pieces) (le : line ≤ next)
    (same : ends = true → tokenLine = line) :
    Ordered tokenLine line ((terminators ends line).map .token ++ pieces) := by
  cases ends with
  | false => exact ordered.earlier le
  | true => exact ordered.token rfl le (Nat.le_refl _) (Nat.le_of_eq (same rfl).symm)

end Ordered

/-- The pieces of lexemes are in order. `tokenLine` is the line on which the last token ends, which
is the present one as long as a line break would end the statement. -/
theorem ordered_piecesFrom {ends : Bool} {tokenLine line : Nat} {lexemes : List Lexeme}
    (follow : Follow line lexemes) (le : tokenLine ≤ line) (same : ends = true → tokenLine = line) :
    Ordered tokenLine line (piecesFrom ends tokenLine line lexemes) := by
  induction lexemes generalizing ends tokenLine line with
  | nil =>
    have ordered := (Ordered.nil tokenLine line).terminators (Nat.le_refl line) same
    rw [List.append_nil] at ordered
    exact ordered
  | cons lexeme rest inductionHypothesis =>
    obtain ⟨rfl, followRest⟩ := follow
    have forward : lexeme.line ≤ lexeme.line + lexeme.lineBreaks := Nat.le_add_right _ _
    have below : (tokenLine != lexeme.line) = true → tokenLine < lexeme.line := by
      rw [bne_iff_ne]
      omega
    rw [piecesFrom]
    cases shape : lexeme.shape with
    | blank =>
      have none : lexeme.lineBreaks = 0 := by rw [Lexeme.lineBreaks, shape]
      refine Ordered.earlier
        (inductionHypothesis followRest (Nat.le_trans le forward) fun still => ?_) forward
      rw [none, same still, Nat.add_zero]
    | newline =>
      refine Ordered.terminators ?_ forward same
      exact inductionHypothesis followRest (Nat.le_trans le forward) nofun
    | lineComment =>
      have none : lexeme.lineBreaks = 0 := by rw [Lexeme.lineBreaks, shape]
      simp only [none, Nat.add_zero] at followRest ⊢
      exact (inductionHypothesis followRest le same).comment rfl (Nat.le_refl _) below
    | blockComment =>
      have unbroken : (ends && !(lexeme.lineBreaks != 0)) = true →
          tokenLine = lexeme.line + lexeme.lineBreaks := by
        rw [Bool.and_eq_true, Bool.not_eq_true', bne_eq_false_iff_eq]
        intro both
        rw [both.2, same both.1, Nat.add_zero]
      have tail := inductionHypothesis followRest (Nat.le_trans le forward) unbroken
      refine Ordered.terminators ?_ (Nat.le_refl _) fun both =>
        same (Bool.and_eq_true_iff.mp both).2
      exact tail.comment rfl forward below
    | token kind =>
      refine Ordered.token ?_ rfl forward (Nat.le_trans le forward) forward
      exact inductionHypothesis followRest (Nat.le_refl _) fun _ => rfl

theorem ordered_piecesOf (source : String) : (piecesOf source).Pairwise Piece.Precedes := by
  unfold piecesOf
  cases cut : lexemes source.toList with
  | error fault => exact .nil
  | ok found =>
    have ordered : Ordered 0 1 (piecesFrom false 0 1 found) :=
      ordered_piecesFrom (follow_of_lexemesFrom cut) (Nat.zero_le 1) nofun
    exact ordered.order

/-! ### The place of a group -/

/-- What is taken from a list in two parts is taken from two parts of the list. -/
theorem split_filterMap {Item Value : Type} {take : Item → Option Value} {items : List Item}
    {front rest : List Value} {value : Value}
    (split : items.filterMap take = front ++ value :: rest) :
    ∃ before item after, items = before ++ item :: after ∧ take item = some value ∧
      before.filterMap take = front ∧ after.filterMap take = rest := by
  obtain ⟨before, others, rfl, taken, takenOthers⟩ := List.filterMap_eq_append_iff.mp split
  obtain ⟨skipped, item, after, rfl, none, takes, takenAfter⟩ :=
    List.filterMap_eq_cons_iff.mp takenOthers
  refine ⟨before ++ skipped, item, after, by rw [List.append_assoc], takes, ?_, takenAfter⟩
  rw [List.filterMap_append, taken, List.filterMap_eq_nil_iff.mpr none, List.append_nil]

theorem split_tokens {pieces : List Piece} {front rest : List Token} {token : Token}
    (split : tokensOf pieces = front ++ token :: rest) :
    ∃ before after, pieces = before ++ .token token :: after ∧ tokensOf before = front ∧
      tokensOf after = rest := by
  obtain ⟨before, piece, after, rfl, takes, taken, takenAfter⟩ := split_filterMap split
  cases piece with
  | comment comment => nomatch takes
  | token other =>
    obtain rfl := Option.some.inj takes
    exact ⟨before, after, rfl, taken, takenAfter⟩

theorem split_comments {pieces : List Piece} {front rest : List Comment} {comment : Comment}
    (split : commentsOf pieces = front ++ comment :: rest) :
    ∃ before after, pieces = before ++ .comment comment :: after ∧ commentsOf before = front ∧
      commentsOf after = rest := by
  obtain ⟨before, piece, after, rfl, takes, taken, takenAfter⟩ := split_filterMap split
  cases piece with
  | token token => nomatch takes
  | comment other =>
    obtain rfl := Option.some.inj takes
    exact ⟨before, after, rfl, taken, takenAfter⟩

theorem mem_tokensOf {pieces : List Piece} {token : Token} :
    token ∈ tokensOf pieces ↔ .token token ∈ pieces := by
  unfold tokensOf
  rw [List.mem_filterMap]
  constructor
  · rintro ⟨piece, member, takes⟩
    cases piece with
    | comment comment => nomatch takes
    | token other =>
      obtain rfl := Option.some.inj takes
      exact member
  · exact fun member => ⟨_, member, rfl⟩

theorem mem_commentsOf {pieces : List Piece} {comment : Comment} :
    comment ∈ commentsOf pieces ↔ .comment comment ∈ pieces := by
  unfold commentsOf
  rw [List.mem_filterMap]
  constructor
  · rintro ⟨piece, member, takes⟩
    cases piece with
    | token token => nomatch takes
    | comment other =>
      obtain rfl := Option.some.inj takes
      exact member
  · exact fun member => ⟨_, member, rfl⟩

/-- A group above the first of the tokens in `head`: the pieces before the group, those from its
first comment on, that token and the pieces behind it. The comments of the group come first among
those in front of the token; they form a run, and the run ends on the line above the token. -/
structure Group (pieces : List Piece) (head : List Token) where
  above : List Piece
  inside : List Piece
  token : Token
  below : List Piece
  run : List Comment
  split : pieces = above ++ (inside ++ .token token :: below)
  tokens : head = token :: tokensOf below
  first : inside.head? = run.head?.map .comment
  members : run <+: commentsOf inside
  chain : CommentRun run
  ends : run.getLast?.map (·.last + 1) = some token.line

/-- The tokens behind a place determine the place. -/
theorem place_eq {first second rest others : List Piece} {token other : Token}
    (same : first ++ .token token :: rest = second ++ .token other :: others)
    (tokens : tokensOf rest = tokensOf others) : first = second := by
  -- If one place were further on, there would be a token less behind it.
  have fewer : ∀ {gap behind : List Piece} {next : Token},
      tokensOf (gap ++ .token next :: behind) ≠ tokensOf behind := by
    intro gap behind next equal
    have length := congrArg List.length equal
    rw [tokensOf_append, tokensOf_token, List.length_append, List.length_cons] at length
    omega
  obtain ⟨gap, reached, behind⟩ | ⟨gap, reached, behind⟩ := List.append_eq_append_iff.mp same
  · cases gap with
    | nil => exact (List.append_nil first ▸ reached).symm
    | cons piece gap =>
      rw [(List.cons.inj behind).2] at tokens
      exact absurd tokens fewer
  · cases gap with
    | nil => exact List.append_nil second ▸ reached
    | cons piece gap =>
      rw [(List.cons.inj behind).2] at tokens
      exact absurd tokens.symm fewer

/-- The head determines where a group ends. -/
theorem Group.place {pieces before after : List Piece} {token : Token} {head : List Token}
    (group : Group pieces head) (split : pieces = before ++ .token token :: after)
    (tokens : head = token :: tokensOf after) :
    group.above ++ group.inside = before ∧ group.token = token := by
  have same := List.cons.inj (group.tokens.symm.trans tokens)
  have whole := group.split.symm.trans split
  rw [← List.append_assoc] at whole
  exact ⟨place_eq whole same.2, same.1⟩

/-- A group whose token stands behind another token has a token inside, as no group is empty. -/
theorem Group.tokens_inside_ne_nil {pieces before after : List Piece} {other token : Token}
    {head : List Token} (group : Group pieces head)
    (split : pieces = before ++ [.token other] ++ .token token :: after)
    (tokens : head = token :: tokensOf after) : tokensOf group.inside ≠ [] := by
  have nonempty : group.inside ≠ [] := by
    intro empty
    have none := group.members
    rw [empty] at none
    have ends := group.ends
    rw [List.prefix_nil.mp none] at ends
    nomatch ends
  have last := congrArg List.getLast? (group.place split tokens).1
  rw [List.getLast?_append_of_ne_nil _ nonempty, List.getLast?_concat] at last
  exact List.ne_nil_of_mem (mem_tokensOf.mpr (List.mem_of_getLast? last))

section

variable {pieces : List Piece} (order : pieces.Pairwise Piece.Precedes)
  (spans : ∀ comment ∈ commentsOf pieces, comment.first ≤ comment.last)

include order

theorem pairwise_commentsOf :
    (commentsOf pieces).Pairwise fun previous next => previous.last ≤ next.first := by
  refine order.filterMap _ fun first second precedes comment takes other takesOther => ?_
  cases first with
  | token token => nomatch takes
  | comment own =>
    cases second with
    | token token => nomatch takesOther
    | comment later =>
      obtain rfl := Option.some.inj takes
      obtain rfl := Option.some.inj takesOther
      exact precedes

include spans

/-- No comment of a run starts before the first one or ends behind the last one. -/
theorem run_bounds {run : List Comment} (inside : run <:+: commentsOf pieces) :
    (∀ first, run.head? = some first → ∀ comment ∈ run, first.first ≤ comment.last) ∧
      ∀ last, run.getLast? = some last → ∀ comment ∈ run, comment.first ≤ last.last ∧
        comment.last ≤ last.last := by
  have inOrder := (pairwise_commentsOf order).sublist inside.sublist
  have span : ∀ comment ∈ run, comment.first ≤ comment.last :=
    fun comment member => spans comment (inside.subset member)
  refine ⟨fun first starts comment member => ?_, fun last ends comment member => ?_⟩
  · obtain ⟨rest, rfl⟩ := List.head?_eq_some_iff.mp starts
    obtain rfl | later := List.mem_cons.mp member
    · exact span comment member
    · have after := (List.pairwise_cons.mp inOrder).1 comment later
      have own := span first List.mem_cons_self
      have other := span comment member
      omega
  · obtain ⟨front, rfl⟩ := List.getLast?_eq_some_iff.mp ends
    have own := span comment member
    obtain earlier | same := List.mem_append.mp member
    · have after := (List.pairwise_append.mp inOrder).2.2 comment earlier last
        (List.mem_singleton_self last)
      have lastSpan := span last (List.mem_append_right _ (List.mem_singleton_self last))
      omega
    · obtain rfl := List.mem_singleton.mp same
      exact ⟨own, Nat.le_refl _⟩

/-- A run that ends above a token stands before it. -/
theorem exists_group {front rest : List Token} {token : Token} {before run after : List Comment}
    (tokens : tokensOf pieces = front ++ token :: rest)
    (comments : commentsOf pieces = before ++ (run ++ after)) (chain : CommentRun run)
    (ends : run.getLast?.map (·.last + 1) = some token.line) :
    ∃ group : Group pieces (token :: rest), group.run = run := by
  obtain ⟨last, isLast, lineBelow⟩ := Option.map_eq_some_iff.mp ends
  have infixed : run <:+: commentsOf pieces := ⟨before, after, by rw [comments, List.append_assoc]⟩
  have bounds := (run_bounds order spans infixed).2 last isLast
  obtain ⟨first, others, rfl⟩ : ∃ first others, run = first :: others :=
    List.exists_cons_of_ne_nil (by rintro rfl; nomatch isLast)
  rw [List.cons_append] at comments
  obtain ⟨above, behind, whole, -, takenBehind⟩ := split_comments comments
  obtain ⟨upper, below, joined, -, takenBelow⟩ := split_tokens tokens
  -- No comment of the run stands behind the token, whose line lies below the run.
  have later : ∀ comment ∈ first :: others, .comment comment ∉ below := by
    intro comment member inBelow
    rw [joined] at order
    have precedes : token.line ≤ comment.first ∧ _ :=
      (List.pairwise_cons.mp (List.pairwise_append.mp order).2.1).1 _ inBelow
    have bound := bounds comment member
    omega
  obtain ⟨inner, rfl, split⟩ | ⟨gap, -, split⟩ :=
    List.append_eq_append_iff.mp (whole.symm.trans joined)
  · cases inner with
    | nil => nomatch split
    | cons piece inner =>
      rw [List.cons_append] at split
      obtain ⟨rfl, rfl⟩ := List.cons.inj split
      have members : first :: others <+: commentsOf (.comment first :: inner) := by
        rw [commentsOf_append, commentsOf_token] at takenBehind
        rw [commentsOf_comment, List.prefix_cons_inj]
        obtain ⟨missing, within, inBelow⟩ | ⟨more, within, -⟩ :=
          List.append_eq_append_iff.mp takenBehind
        · cases missing with
          | nil =>
            rw [List.append_nil] at within
            exact within ▸ List.prefix_rfl
          | cons comment missing =>
            refine absurd (mem_commentsOf.mp ?_) (later comment ?_)
            · rw [inBelow]
              exact List.mem_append_left _ List.mem_cons_self
            · rw [within]
              exact List.mem_cons_of_mem _ (List.mem_append_right _ List.mem_cons_self)
        · exact ⟨more, within.symm⟩
      refine ⟨⟨above, .comment first :: inner, token, below, first :: others, whole, ?_, rfl,
        members, chain, ends⟩, rfl⟩
      rw [takenBelow]
  · cases gap with
    | nil => nomatch split
    | cons piece gap =>
      refine absurd ?_ (later first List.mem_cons_self)
      rw [(List.cons.inj split).2]
      exact List.mem_append_right _ List.mem_cons_self

/-- Tokens get in between a group and its token only on the line of the token and on lines on which
a comment of the group ends. -/
theorem tokens_inside_iff {head : List Token} (group : Group pieces head) :
    tokensOf group.inside = [] ↔ ∀ other ∈ tokensOf (group.above ++ group.inside),
      other.line ≠ group.token.line ∧ ∀ comment ∈ group.run, other.line ≠ comment.last := by
  obtain ⟨above, inside, token, below, run, rfl, -, starts, members, chain, ends⟩ := group
  obtain ⟨last, isLast, lineBelow⟩ := Option.map_eq_some_iff.mp ends
  have lastMember := List.mem_of_getLast? isLast
  obtain ⟨first, others, rfl⟩ : ∃ first others, run = first :: others :=
    List.exists_cons_of_ne_nil (by rintro rfl; nomatch isLast)
  have infixed : first :: others <:+: commentsOf (above ++ (inside ++ .token token :: below)) := by
    rw [commentsOf_append, commentsOf_append]
    exact List.infix_append_of_infix_right (List.infix_append_of_infix_left members.isInfix)
  obtain ⟨firstBound, lastBound⟩ := run_bounds order spans infixed
  obtain ⟨-, orderInside, orderAbove⟩ := List.pairwise_append.mp order
  obtain ⟨-, -, orderToken⟩ := List.pairwise_append.mp orderInside
  have starting : .comment first ∈ inside := by
    obtain ⟨tail, rfl⟩ := List.head?_eq_some_iff.mp starts
    exact List.mem_cons_self
  simp only
  constructor
  · intro none other member
    rw [tokensOf_append, none, List.append_nil] at member
    have precedes : other.line ≤ first.first ∧ (first.ownLine → other.line < first.first) :=
      orderAbove _ (mem_tokensOf.mp member) _ (List.mem_append_left _ starting)
    have less := precedes.2 (chain.own first List.mem_cons_self)
    have lastLine := lastBound last isLast first List.mem_cons_self
    refine ⟨by omega, fun comment within => ?_⟩
    have line := firstBound first rfl comment within
    omega
  · intro outside
    refine List.eq_nil_iff_forall_not_mem.mpr fun other member => ?_
    have known := outside other (by rw [tokensOf_append]; exact List.mem_append_right _ member)
    have upTo : other.line ≤ token.line :=
      orderToken _ (mem_tokensOf.mp member) _ List.mem_cons_self
    obtain ⟨front, rest, rfl⟩ := List.append_of_mem (mem_tokensOf.mp member)
    obtain ⟨-, orderRest, orderFront⟩ :=
      List.pairwise_append.mp (List.pairwise_append.mp orderInside).1
    have behind : ∀ comment ∈ commentsOf front, comment.last ≤ other.line := fun comment inFront =>
      orderFront _ (mem_commentsOf.mp inFront) _ List.mem_cons_self
    have firstMember : first ∈ commentsOf front := by
      cases front with
      | nil => nomatch starts
      | cons piece front =>
        obtain rfl := Option.some.inj starts
        exact List.mem_cons_self
    rw [commentsOf_append, commentsOf_token] at members
    obtain all | ⟨previous, inRun, inFront, next, inRest, own, gap⟩ :=
      chain.cut members (List.ne_nil_of_mem firstMember)
    · have line := behind last (all last lastMember)
      have ne := known.2 last lastMember
      omega
    · have precedes : other.line ≤ next.first ∧ (next.ownLine → other.line < next.first) :=
        (List.pairwise_cons.mp orderRest).1 _ (mem_commentsOf.mp inRest)
      have less := precedes.2 own
      have line := behind previous inFront
      have ne := known.2 previous inRun
      omega

end

/-! ### The group that documents a line -/

theorem exists_run_of_above {comments : List Comment} {line : Nat}
    (documented : (docsOf comments).above line ≠ "") :
    ∃ before run after, comments = before ++ (run ++ after) ∧ CommentRun run ∧
      run.getLast?.map (·.last + 1) = some line ∧ (docsOf comments).above line = groupText run := by
  unfold Docs.above at documented ⊢
  cases entry : (docsOf comments).reverse.find? (fun entry => entry.1 + 1 == line) with
  | none =>
    rw [entry] at documented
    exact absurd rfl documented
  | some found =>
    have onLine := List.find?_some entry
    obtain ⟨run, member, rfl⟩ := List.mem_map.mp
      (List.mem_reverse.mp (List.mem_of_find?_eq_some entry))
    obtain ⟨last, isLast⟩ := Option.isSome_iff_exists.mp
      (List.getLast?_isSome.mpr (groupsFrom_ne_nil member))
    obtain ⟨chain, before, after, split⟩ := run_of_mem_groupsFrom commentRun_nil member
    refine ⟨before, run, after, split, chain, ?_, rfl⟩
    simp only [isLast, Option.map_some, Option.getD_some, beq_iff_eq] at onLine ⊢
    rw [onLine]

/-! ### Where declarations start -/

/-- The places at which the declarations of a top-level item start: the specifications of a group of
types, the item itself if it declares anything else, and none if it is a package clause or an
import. -/
def headsAt (docs : Docs) : List Token → List (List Token)
  | [] => []
  | keyword :: rest =>
    if keyword.text = "package" ∨ keyword.text = "import" then []
    else if keyword.text = "type" ∧ nextIs "(" rest then
      itemStarts ")" (fun tokens => single (typeSpec (docs.aboveNext tokens)
        (docs.above keyword.line) tokens)) (rest.drop 1)
    else [keyword :: rest]

/-- The places at which the declarations start, each given by the tokens from there on. -/
def headsFrom (docs : Docs) (tokens : List Token) : List (List Token) :=
  (declarationStarts docs tokens).flatMap (headsAt docs)

/-- The tokens start with the keyword of the declaration, or with its name if it is a type in a
group. -/
def Declaration.StartsWith (declaration : Declaration) : List Token → Prop
  | [] => False
  | first :: rest =>
    match declaration with
    | .function own => first.kind = .keyword ∧ first.text = "func" ∧ first.line = own.line
    | .value own => first.kind = .keyword ∧ first.text = own.keyword.text ∧ first.line = own.line
    | .type own =>
      (first.kind = .keyword ∧ first.text = "type" ∧
        ∃ name ∈ rest.head?, name.kind = .ident ∧ name.text = own.name ∧ name.line = own.line) ∨
      (first.kind = .ident ∧ first.text = own.name ∧ first.line = own.line)

/-- The declaration starts at the head, has the documentation of the line on which the head starts,
and the head is a rest of the tokens. -/
structure HeadOf (docs : Docs) (tokens : List Token) (declaration : Declaration)
    (head : List Token) : Prop where
  starts : declaration.StartsWith head
  doc : declaration.doc = docs.aboveNext head
  rest : head <:+ tokens

theorem HeadOf.suffix {docs : Docs} {tokens others : List Token} {declaration : Declaration}
    {head : List Token} (headOf : HeadOf docs others declaration head)
    (inside : others <:+ tokens) : HeadOf docs tokens declaration head :=
  ⟨headOf.starts, headOf.doc, headOf.rest.trans inside⟩

/-- The items of a list start at its starts, one at each. -/
theorem forall₂_itemStarts {Item : Type} {closer : String} {unclosed : ReadFault}
    {item : List Token → Except ReadFault (List Item × Nat)} {tokens : List Token}
    {found : List Item} {used : Nat} {relation : Item → List Token → Prop}
    (each : ∀ start own used, start <:+ tokens → item start = .ok (own, used) →
      ∃ only, own = [only] ∧ relation only start)
    (read : itemsUntil closer unclosed item tokens = .ok (found, used)) :
    List.Forall₂ relation found (itemStarts closer item tokens) := by
  rw [itemsUntil_eq_ok] at read
  induction read with
  | closed closes =>
    rw [itemStarts, if_pos closes]
    exact .nil
  | @separator token rest others othersUsed goesOn ends _ inductionHypothesis =>
    rw [itemStarts, if_neg (ne_true_of_eq_false goesOn), if_pos ends]
    exact inductionHypothesis fun start own used inside =>
      each start own used (inside.trans (List.suffix_cons token rest))
  | @item token rest own others ownUsed othersUsed goesOn starts readOwn _ _ inductionHypothesis =>
    rw [itemStarts, if_neg (ne_true_of_eq_false goesOn), if_neg (ne_true_of_eq_false starts),
      usedBy_map_snd readOwn]
    obtain ⟨only, rfl, related⟩ := each _ own ownUsed List.suffix_rfl readOwn
    have inside : rest.drop (ownUsed - 1) <:+ token :: rest :=
      (List.drop_suffix _ rest).trans (List.suffix_cons token rest)
    exact .cons related (inductionHypothesis fun start own used within =>
      each start own used (within.trans inside))

/-- A declaration of values starts at its keyword. -/
theorem headsAt_of_value {docs : Docs} {keyword : Token} {rest : List Token}
    {valueKeyword : ValueKeyword} (text : keyword.text = valueKeyword.text) :
    headsAt docs (keyword :: rest) = [keyword :: rest] := by
  cases valueKeyword with
  | const => simp [headsAt, text, ValueKeyword.text]
  | var => simp [headsAt, text, ValueKeyword.text]

theorem heads_topLevel {docs : Docs} {keyword : Token} {rest : List Token}
    {found : List Declaration} {used : Nat}
    (read : topLevel docs keyword rest = .ok (found, used)) :
    List.Forall₂ (HeadOf docs (keyword :: rest)) found (headsAt docs (keyword :: rest)) := by
  obtain ⟨kind, form⟩ := topForm_of_topLevel read
  cases form with
  | package text named nameKind =>
    rw [headsAt, if_pos (Or.inl text)]
    exact .nil
  | importGroup text opened skip =>
    rw [headsAt, if_pos (Or.inr text)]
    exact .nil
  | importLine text unopened =>
    rw [headsAt, if_pos (Or.inr text)]
    exact .nil
  | type text readType =>
    have declares : ¬ (keyword.text = "package" ∨ keyword.text = "import") := by
      rw [text]
      decide
    rw [headsAt, if_neg declares]
    obtain ⟨opener, tail, group, rfl, opens, readGroup, -⟩ | ⟨alone, spec, readSpec, rfl⟩ :=
      typeDeclaration_eq_ok readType
    · rw [if_pos ⟨text, opens⟩, List.forall₂_map_left_iff]
      refine forall₂_itemStarts (fun start own used inside readOwn => ?_) readGroup
      obtain ⟨spec, readSpec, rfl⟩ := single_eq_ok.mp readOwn
      obtain ⟨name, others, parameters, mark, fields, underlying, bodyUsed, rfl, nameKind, -, -, -,
        rfl, -⟩ := typeSpec_eq_ok readSpec
      refine ⟨_, rfl, Or.inr ⟨nameKind, rfl, rfl⟩, rfl, inside.trans ?_⟩
      exact (List.suffix_cons _ _).trans (List.suffix_cons _ _)
    · have single : ¬ (keyword.text = "type" ∧ nextIs "(" rest = true) := fun both =>
        Bool.false_ne_true (alone.symm.trans both.2)
      obtain ⟨name, others, parameters, mark, fields, underlying, bodyUsed, rfl, nameKind, -, -, -,
        rfl, -⟩ := typeSpec_eq_ok readSpec
      rw [if_neg single]
      exact .cons ⟨Or.inl ⟨kind, text, name, rfl, nameKind, rfl, rfl⟩, rfl, List.suffix_rfl⟩ .nil
  | value valueKeyword text readValue =>
    obtain ⟨specs, rfl, -⟩ := valueDeclaration_eq_ok readValue
    rw [headsAt_of_value text]
    exact .cons ⟨⟨kind, text, rfl⟩, rfl, List.suffix_rfl⟩ .nil
  | function text readFunction =>
    have declares : headsAt docs (keyword :: rest) = [keyword :: rest] := by
      simp [headsAt, text]
    obtain ⟨receiverText, receiverUsed, name, signature, typeParameters, parameters, results, body,
      -, -, -, -, -, -, -, rfl, -⟩ := functionDeclaration_eq_ok readFunction
    rw [declares]
    exact .cons ⟨⟨kind, text, rfl⟩, rfl, List.suffix_rfl⟩ .nil

/-- What holds of the declarations of every top-level item and their heads holds of all
declarations and their heads. -/
theorem forall₂_headsFrom {docs : Docs} {tokens : List Token} {found : List Declaration}
    {relation : Declaration → List Token → Prop}
    (each : ∀ keyword rest own used, keyword :: rest <:+ tokens →
      topLevel docs keyword rest = .ok (own, used) →
      List.Forall₂ relation own (headsAt docs (keyword :: rest)))
    (read : declarations docs tokens = .ok found) :
    List.Forall₂ relation found (headsFrom docs tokens) := by
  rw [declarations_eq_ok] at read
  unfold headsFrom
  induction read with
  | ended =>
    rw [declarationStarts]
    exact .nil
  | @separator token rest found semicolon _ inductionHypothesis =>
    rw [declarationStarts, if_pos semicolon]
    exact inductionHypothesis fun keyword tail own used inside =>
      each keyword tail own used (inside.trans (List.suffix_cons token rest))
  | @topLevel token rest own others used starts readOwn _ _ inductionHypothesis =>
    have inside : rest.drop (used - 1) <:+ token :: rest :=
      (List.drop_suffix _ rest).trans (List.suffix_cons token rest)
    rw [declarationStarts, if_neg starts, usedBy_map_snd readOwn, List.flatMap_cons]
    refine List.rel_append (each token rest own used List.suffix_rfl readOwn) ?_
    exact inductionHypothesis fun keyword tail own used within =>
      each keyword tail own used (within.trans inside)

theorem heads_declarations {docs : Docs} {tokens : List Token} {found : List Declaration}
    (read : declarations docs tokens = .ok found) :
    List.Forall₂ (HeadOf docs tokens) found (headsFrom docs tokens) :=
  forall₂_headsFrom (fun _ _ _ _ inside readOwn =>
    (heads_topLevel readOwn).imp fun _ _ headOf => headOf.suffix inside) read

/-! ### Sources -/

/-- The places at which the declarations of a source start. -/
def headsOf (source : String) : List (List Token) :=
  headsFrom (docsOf (commentsOf (piecesOf source))) (tokensOf (piecesOf source))

/-- The declaration starts at the head and its documentation, if there is any, is the text of a
group above the first token of the head. There is no token between the first comment of the group
and that token exactly when no token before it starts on its line or on a line on which a comment
of the group ends. -/
def Documented (pieces : List Piece) (declaration : Declaration) (head : List Token) : Prop :=
  declaration.StartsWith head ∧
    (declaration.doc ≠ "" → ∃ group : Group pieces head,
      declaration.doc = groupText group.run ∧
      (tokensOf group.inside = [] ↔ ∀ other ∈ tokensOf (group.above ++ group.inside),
        other.line ≠ group.token.line ∧ ∀ comment ∈ group.run, other.line ≠ comment.last))

/-- The declarations of a source start at its heads, one at each, and are documented by groups above
them: consecutive comments on lines of their own, each starting no later than the line behind the
one before, the last one ending on the line above the first token of the declaration. -/
theorem readSource_documentation (source : String) (found : List Declaration)
    (accepted : readSource source = .ok found) :
    List.Forall₂ (Documented (piecesOf source)) found (headsOf source) := by
  obtain ⟨layout, laid, read⟩ := readSource_eq_ok.mp accepted
  have counted := counted_of_layoutOf laid
  obtain rfl := layoutOf_eq_pieces laid
  have order := ordered_piecesOf source
  have spans : ∀ comment ∈ commentsOf (piecesOf source), comment.first ≤ comment.last :=
    fun comment member => (counted.comments comment member).2
  refine (heads_declarations read).imp fun declaration head headOf => ⟨headOf.starts, ?_⟩
  intro documented
  obtain ⟨starts, doc, front, whole⟩ := headOf
  cases head with
  | nil => exact starts.elim
  | cons token rest =>
    rw [doc] at documented ⊢
    obtain ⟨before, run, after, comments, chain, ends, text⟩ := exists_run_of_above documented
    obtain ⟨group, rfl⟩ := exists_group order spans whole.symm comments chain ends
    exact ⟨group, text, tokens_inside_iff order spans group⟩

/-- The statement at a variable below a line comment and a block comment, with no token between
them. -/
theorem readSource_documentation_variable :
    let source := "package p\n\n// One.\n/* Two. */\nvar x = 1\n"
    let head : List Token := [⟨.keyword, "var", 5⟩, ⟨.ident, "x", 5⟩, ⟨.op, "=", 5⟩,
      ⟨.number, "1", 5⟩, .terminator 5]
    headsOf source = [head] ∧ ∃ group : Group (piecesOf source) head,
      readSource source = .ok [.value ⟨.var, groupText group.run, [⟨["x"], ["1"]⟩], 5⟩] ∧
      tokensOf group.inside = [] := by
  intro source head
  have read : readSource source = .ok [.value ⟨.var, "One.\n Two.\n", [⟨["x"], ["1"]⟩], 5⟩] :=
    eq_ok_of_toOption (by decide +kernel)
  have heads : headsOf source = [head] := by decide +kernel
  have pieces : piecesOf source = [.token ⟨.keyword, "package", 1⟩, .token ⟨.ident, "p", 1⟩,
      .token (.terminator 1), .comment ⟨"// One.".toList, 3, 3, true⟩,
      .comment ⟨"/* Two. */".toList, 4, 4, true⟩] ++ .token ⟨.keyword, "var", 5⟩ ::
      head.tail.map .token := by decide +kernel
  have documented := readSource_documentation source _ read
  rw [heads, List.forall₂_cons] at documented
  obtain ⟨group, text, free⟩ := documented.1.2 (by decide)
  refine ⟨heads, group, ?_, free.mpr ?_⟩
  · rw [← text]
    exact read
  · have commentLines : ∀ comment ∈ commentsOf (piecesOf source), comment.last ≠ 1 := by
      decide +kernel
    have within : ∀ comment ∈ group.run, comment ∈ commentsOf (piecesOf source) := by
      intro comment member
      rw [group.split, commentsOf_append, commentsOf_append]
      exact List.mem_append_right _ (List.mem_append_left _ (group.members.subset member))
    obtain ⟨before, onLine⟩ := group.place pieces rfl
    rw [before, onLine]
    intro other member
    have line : other.line = 1 := by
      revert other
      decide
    rw [line]
    exact ⟨by decide, fun comment member => (commentLines comment (within comment member)).symm⟩

/-- A comment that stands before code on its line documents the declaration on the next line, with
the code in between. -/
theorem comment_before_code_documents :
    let source := "package p\n\n/* a */ var x = 1\nfunc f() {}\n"
    let x : Declaration := .value ⟨.var, "", [⟨["x"], ["1"]⟩], 3⟩
    let f : Declaration := .function ⟨"f", " a\n", none, 4⟩
    let head : List Token := [⟨.keyword, "func", 4⟩, ⟨.ident, "f", 4⟩, ⟨.op, "(", 4⟩, ⟨.op, ")", 4⟩,
      ⟨.op, "\x7b", 4⟩, ⟨.op, "\x7d", 4⟩, .terminator 4]
    readSource source = .ok [x, f] ∧ (headsOf source)[1]? = some head ∧ f.StartsWith head ∧
      ¬ ∃ group : Group (piecesOf source) head, f.doc = groupText group.run ∧
        tokensOf group.inside = [] := by
  intro source x f head
  have pieces : piecesOf source = [.token ⟨.keyword, "package", 1⟩, .token ⟨.ident, "p", 1⟩,
      .token (.terminator 1), .comment ⟨"/* a */".toList, 3, 3, true⟩,
      .token ⟨.keyword, "var", 3⟩, .token ⟨.ident, "x", 3⟩, .token ⟨.op, "=", 3⟩,
      .token ⟨.number, "1", 3⟩] ++ [.token (.terminator 3)] ++ .token ⟨.keyword, "func", 4⟩ ::
      head.tail.map .token := by decide +kernel
  refine ⟨eq_ok_of_toOption (by decide +kernel), by decide +kernel, ⟨rfl, rfl, rfl⟩, ?_⟩
  rintro ⟨group, -, none⟩
  exact group.tokens_inside_ne_nil pieces rfl none

end GoApiDoc.Go
