/-
This file counts brackets. Every token moves a level: an opening bracket up by one, a closing
one down by one, all others not at all. A list of tokens is balanced when the level, started at
zero, never falls below it and ends there.

A reader that goes through a list pairs most brackets itself, but it may pass over stretches
whose brackets it does not look at. What can go wrong with the balance goes wrong there, and it
shows at two kinds of place only: inside such a stretch, and where the reader closes a bracket
of its own while an earlier stretch has left the level too low. A `Stop` is such a place. The
statement that is carried along, `Framed`, says that a stretch of tokens keeps the level at or
above zero exactly when its stops do.
-/

import GoApiDoc.Go.Reader

namespace GoApiDoc.Go

/-! ### Levels -/

/-- By how much the token moves the level. -/
def Token.step (token : Token) : Int :=
  if token.isOpener then 1 else if token.isCloser then -1 else 0

theorem Token.isCloser_eq_false {token : Token} (opens : token.isOpener) :
    token.isCloser = false := by
  unfold Token.isOpener at opens
  unfold Token.isCloser
  rw [Bool.and_eq_true, List.contains_iff_mem] at opens
  have shape := opens.2
  simp only [List.mem_cons, List.not_mem_nil, or_false] at shape
  obtain text | text | text := shape
  · simp [text]
  · simp [text]
  · simp [text]

theorem Token.step_of_isOpener {token : Token} (opens : token.isOpener) : token.step = 1 := by
  unfold Token.step
  rw [if_pos opens]

theorem Token.step_of_isCloser {token : Token} (closes : token.isCloser) : token.step = -1 := by
  unfold Token.step
  rw [if_neg, if_pos closes]
  intro opens
  rw [Token.isCloser_eq_false opens] at closes
  exact Bool.false_ne_true closes

theorem Token.step_of_kind {token : Token} {kind : TokenKind} (same : token.kind = kind)
    (other : kind ≠ .op) : token.step = 0 := by
  have differs : (token.kind == .op) = false := by
    rw [same]
    exact beq_eq_false_iff_ne.mpr other
  unfold Token.step Token.isOpener Token.isCloser
  simp [differs]

/-- By how much the tokens together move the level. -/
def net : List Token → Int
  | [] => 0
  | token :: rest => token.step + net rest

@[simp] theorem net_nil : net [] = 0 :=
  rfl

@[simp] theorem net_cons (token : Token) (rest : List Token) :
    net (token :: rest) = token.step + net rest :=
  rfl

@[simp] theorem net_append (first second : List Token) :
    net (first ++ second) = net first + net second := by
  induction first with
  | nil => rw [List.nil_append, net_nil, Int.zero_add]
  | cons token rest inductionHypothesis =>
    rw [List.cons_append, net_cons, net_cons, inductionHypothesis, Int.add_assoc]

theorem net_eq_counts (tokens : List Token) :
    net tokens = tokens.countP Token.isOpener - tokens.countP Token.isCloser := by
  induction tokens with
  | nil => rfl
  | cons token rest inductionHypothesis =>
    rw [net_cons, inductionHypothesis, List.countP_cons, List.countP_cons]
    cases opens : token.isOpener with
    | true =>
      rw [Token.step_of_isOpener opens, Token.isCloser_eq_false opens]
      simp only [if_true, Bool.false_eq_true, if_false]
      omega
    | false =>
      cases closes : token.isCloser with
      | true =>
        rw [Token.step_of_isCloser closes]
        simp only [if_true, Bool.false_eq_true, if_false]
        omega
      | false => simp [Token.step, opens, closes]

/-- Whether the level, started at `level`, is at or above zero at every point. -/
def Stays (level : Int) : List Token → Prop
  | [] => 0 ≤ level
  | token :: rest => 0 ≤ level ∧ Stays (level + token.step) rest

instance decidableStays (level : Int) (tokens : List Token) : Decidable (Stays level tokens) :=
  match tokens with
  | [] => inferInstanceAs (Decidable (0 ≤ level))
  | token :: rest =>
    have := decidableStays (level + token.step) rest
    inferInstanceAs (Decidable (_ ∧ _))

theorem Stays.start {level : Int} {tokens : List Token} (stays : Stays level tokens) :
    0 ≤ level := by
  cases tokens with
  | nil => exact stays
  | cons token rest => exact stays.1

theorem Stays.finish {level : Int} {tokens : List Token} (stays : Stays level tokens) :
    0 ≤ level + net tokens := by
  induction tokens generalizing level with
  | nil =>
    rw [net_nil, Int.add_zero]
    exact stays
  | cons token rest inductionHypothesis =>
    rw [net_cons, ← Int.add_assoc]
    exact inductionHypothesis stays.2

theorem Stays.mono {level higher : Int} {tokens : List Token} (stays : Stays level tokens)
    (le : level ≤ higher) : Stays higher tokens := by
  induction tokens generalizing level higher with
  | nil => exact Int.le_trans stays le
  | cons token rest inductionHypothesis =>
    exact ⟨Int.le_trans stays.1 le, inductionHypothesis stays.2 (Int.add_le_add_right le _)⟩

theorem stays_append {level : Int} {first second : List Token} :
    Stays level (first ++ second) ↔ Stays level first ∧ Stays (level + net first) second := by
  induction first generalizing level with
  | nil =>
    rw [List.nil_append, net_nil, Int.add_zero]
    exact ⟨fun stays => ⟨stays.start, stays⟩, fun both => both.2⟩
  | cons token rest inductionHypothesis =>
    rw [List.cons_append, net_cons, ← Int.add_assoc]
    simp only [Stays, inductionHypothesis, and_assoc]

/-- Staying is a statement about what comes first: it holds when no front of the list closes
more than `level` allows. -/
theorem stays_iff_fronts {level : Int} {tokens : List Token} :
    Stays level tokens ↔ ∀ front, front <+: tokens → 0 ≤ level + net front := by
  constructor
  · rintro stays front ⟨rest, rfl⟩
    exact (stays_append.mp stays).1.finish
  · intro fronts
    have start : 0 ≤ level := by simpa using fronts [] List.nil_prefix
    induction tokens generalizing level with
    | nil => exact start
    | cons token rest inductionHypothesis =>
      have tail : ∀ front, front <+: rest → 0 ≤ level + token.step + net front := by
        intro front before
        have whole := fronts (token :: front) (List.cons_prefix_cons.mpr ⟨rfl, before⟩)
        rw [net_cons, ← Int.add_assoc] at whole
        exact whole
      refine ⟨start, inductionHypothesis tail ?_⟩
      simpa using tail [] List.nil_prefix

/-! ### Balance -/

/-- No front of the list closes more brackets than it opens, and the whole list closes all that
it opens. Shapes of brackets are not compared. -/
def Balanced (tokens : List Token) : Prop :=
  (∀ front, front <+: tokens → front.countP Token.isCloser ≤ front.countP Token.isOpener) ∧
    tokens.countP Token.isCloser = tokens.countP Token.isOpener

theorem balanced_iff {tokens : List Token} : Balanced tokens ↔ Stays 0 tokens ∧ net tokens = 0 := by
  unfold Balanced
  rw [stays_iff_fronts, net_eq_counts]
  refine and_congr (forall_congr' fun front => imp_congr_right fun _ => ?_) ?_
  · rw [net_eq_counts]
    omega
  · omega

instance decidableBalanced (tokens : List Token) : Decidable (Balanced tokens) :=
  decidable_of_iff _ balanced_iff.symm

/-- Skipping to the bracket that closes `depth + 1` open ones goes over tokens that keep the
level at or above zero and leave it at zero when they start at `depth`. -/
theorem insideBrackets_eq_some {depth : Nat} {tokens inner : List Token}
    (inside : insideBrackets depth tokens = some inner) :
    ∃ closer rest, tokens = inner ++ closer :: rest ∧ closer.isCloser ∧ Stays depth inner ∧
      net inner = -depth := by
  induction tokens generalizing depth inner with
  | nil => simp [insideBrackets] at inside
  | cons token rest inductionHypothesis =>
    rw [insideBrackets.eq_def] at inside
    simp only at inside
    split at inside
    · next opens =>
      obtain ⟨tail, found, rfl⟩ := Option.map_eq_some_iff.mp inside
      obtain ⟨closer, behind, rfl, closes, stays, level⟩ := inductionHypothesis found
      have step := Token.step_of_isOpener opens
      refine ⟨closer, behind, rfl, closes, ⟨by omega, ?_⟩, ?_⟩
      · rw [step]
        exact stays
      · rw [net_cons, step, level]
        omega
    · next unopened =>
      split at inside
      · next closes =>
        have step := Token.step_of_isCloser closes
        split at inside
        · obtain rfl := Option.some.inj inside
          exact ⟨token, rest, rfl, closes, Int.le_refl 0, rfl⟩
        · next depth =>
          obtain ⟨tail, found, rfl⟩ := Option.map_eq_some_iff.mp inside
          obtain ⟨closer, behind, rfl, closing, stays, level⟩ := inductionHypothesis found
          refine ⟨closer, behind, rfl, closing, ⟨by omega, ?_⟩, ?_⟩
          · refine stays.mono ?_
            rw [step]
            omega
          · rw [net_cons, step, level]
            omega
      · next unclosed =>
        obtain ⟨tail, found, rfl⟩ := Option.map_eq_some_iff.mp inside
        obtain ⟨closer, behind, rfl, closes, stays, level⟩ := inductionHypothesis found
        have step : token.step = 0 := by
          unfold Token.step
          rw [if_neg unopened, if_neg unclosed]
        refine ⟨closer, behind, rfl, closes, ⟨by omega, ?_⟩, ?_⟩
        · rw [step, Int.add_zero]
          exact stays
        · rw [net_cons, step, level, Int.zero_add]

/-- A run that closes `depth` brackets more than it opens, and never more than that, is followed by
the bracket at which skipping stops. -/
theorem insideBrackets_of_stays {depth : Nat} {tokens : List Token} {closer : Token}
    (stays : Stays depth tokens) (level : net tokens = -depth) (closes : closer.isCloser)
    (rest : List Token) : insideBrackets depth (tokens ++ closer :: rest) = some tokens := by
  induction tokens generalizing depth with
  | nil =>
    have unopened : ¬ closer.isOpener := by
      intro opens
      rw [Token.isCloser_eq_false opens] at closes
      exact Bool.false_ne_true closes
    obtain rfl : depth = 0 := by
      rw [net_nil] at level
      omega
    rw [List.nil_append, insideBrackets.eq_def]
    simp only [if_neg unopened, if_pos closes]
  | cons token tokens inductionHypothesis =>
    obtain ⟨-, stays⟩ := stays
    rw [net_cons] at level
    rw [List.cons_append, insideBrackets.eq_def]
    simp only
    by_cases opens : token.isOpener
    · rw [Token.step_of_isOpener opens] at stays level
      have deeper : ((depth + 1 : Nat) : Int) = depth + 1 := rfl
      rw [if_pos opens, inductionHypothesis (deeper ▸ stays) (by omega)]
      rfl
    rw [if_neg opens]
    by_cases shuts : token.isCloser
    · rw [Token.step_of_isCloser shuts] at stays level
      have above := stays.start
      cases depth with
      | zero => omega
      | succ depth =>
        have lower : ((depth + 1 : Nat) : Int) + -1 = depth := by omega
        rw [if_pos shuts]
        simp only
        rw [inductionHypothesis (lower ▸ stays) (by omega)]
        rfl
    · have step : token.step = 0 := by
        unfold Token.step
        rw [if_neg opens, if_neg shuts]
      rw [step, Int.add_zero] at stays
      rw [step, Int.zero_add] at level
      rw [if_neg shuts, inductionHypothesis stays level]
      rfl

/-- A balanced run between brackets is skipped with them. -/
theorem skipBalanced_of_balanced {opener closer : Token} {inner : List Token}
    (opens : opener.isOpener) (balanced : Balanced inner) (closes : closer.isCloser)
    (rest : List Token) :
    skipBalanced (opener :: (inner ++ closer :: rest)) = .ok (inner, inner.length + 2) := by
  obtain ⟨stays, level⟩ := balanced_iff.mp balanced
  have inside : insideBrackets 0 (inner ++ closer :: rest) = some inner :=
    insideBrackets_of_stays stays level closes rest
  rw [skipBalanced, if_pos opens, inside]

/-! ### Stops -/

/-- A place at which the level can go wrong: `depth` brackets of the reader's own are open there,
and `tokens` follow whose brackets it does not pair. Without tokens it is the place behind a
bracket that the reader has just closed. -/
structure Stop where
  depth : Nat
  tokens : List Token
  deriving DecidableEq, Repr

/-- By how much the stops together move the level. -/
def excessOf : List Stop → Int
  | [] => 0
  | stop :: rest => net stop.tokens + excessOf rest

@[simp] theorem excessOf_nil : excessOf [] = 0 :=
  rfl

@[simp] theorem excessOf_cons (stop : Stop) (rest : List Stop) :
    excessOf (stop :: rest) = net stop.tokens + excessOf rest :=
  rfl

@[simp] theorem excessOf_append (first second : List Stop) :
    excessOf (first ++ second) = excessOf first + excessOf second := by
  induction first with
  | nil => rw [List.nil_append, excessOf_nil, Int.zero_add]
  | cons stop rest inductionHypothesis =>
    rw [List.cons_append, excessOf_cons, excessOf_cons, inductionHypothesis, Int.add_assoc]

/-- Whether the level is at or above zero at every stop. It is the depth of the stop and the
excess that the stops before have left. -/
def Covered (excess : Int) : List Stop → Prop
  | [] => True
  | stop :: rest =>
    Stays (stop.depth + excess) stop.tokens ∧ Covered (excess + net stop.tokens) rest

instance decidableCovered (excess : Int) (stops : List Stop) : Decidable (Covered excess stops) :=
  match stops with
  | [] => inferInstanceAs (Decidable True)
  | stop :: rest =>
    have := decidableCovered (excess + net stop.tokens) rest
    inferInstanceAs (Decidable (_ ∧ _))

theorem covered_append {excess : Int} {first second : List Stop} :
    Covered excess (first ++ second) ↔
      Covered excess first ∧ Covered (excess + excessOf first) second := by
  induction first generalizing excess with
  | nil => simp [Covered]
  | cons stop rest inductionHypothesis =>
    rw [List.cons_append, excessOf_cons, ← Int.add_assoc]
    simp only [Covered, inductionHypothesis, and_assoc]

/-- Stretches that are balanced each by itself leave no excess behind. -/
theorem covered_of_balanced {stops : List Stop}
    (balanced : ∀ stop ∈ stops, Balanced stop.tokens) : Covered 0 stops ∧ excessOf stops = 0 := by
  induction stops with
  | nil => exact ⟨trivial, rfl⟩
  | cons stop rest inductionHypothesis =>
    obtain ⟨stays, level⟩ := balanced_iff.mp (balanced stop List.mem_cons_self)
    obtain ⟨covered, excess⟩ :=
      inductionHypothesis fun other member => balanced other (List.mem_cons_of_mem stop member)
    refine ⟨⟨stays.mono (by omega), ?_⟩, ?_⟩
    · rw [level]
      exact covered
    · rw [excessOf_cons, level, excess, Int.zero_add]

/-! ### Frames -/

/-- The stops tell all about the tokens: they move the level by as much, and the tokens keep it
at or above zero from `depth` and any excess on exactly when the stops do. -/
structure Framed (depth : Nat) (tokens : List Token) (stops : List Stop) : Prop where
  net_eq : net tokens = excessOf stops
  stays_iff : ∀ excess : Int, 0 ≤ depth + excess →
    (Stays (depth + excess) tokens ↔ Covered excess stops)

namespace Framed

theorem nil (depth : Nat) : Framed depth [] [] where
  net_eq := rfl
  stays_iff _ above := iff_of_true above trivial

theorem plain {depth : Nat} {token : Token} (step : token.step = 0) : Framed depth [token] [] where
  net_eq := by rw [net_cons, step, net_nil, excessOf_nil, Int.add_zero]
  stays_iff excess above := by
    refine iff_of_true ⟨above, ?_⟩ trivial
    rw [step, Int.add_zero]
    exact above

/-- Tokens whose brackets nobody pairs are one stop. -/
theorem unpaired (depth : Nat) (tokens : List Token) : Framed depth tokens [⟨depth, tokens⟩] where
  net_eq := by rw [excessOf_cons, excessOf_nil, Int.add_zero]
  stays_iff _ _ := (and_iff_left trivial).symm

/-- Balanced tokens have no stop. -/
theorem balanced {depth : Nat} {tokens : List Token} (balanced : Balanced tokens) :
    Framed depth tokens [] where
  net_eq := (balanced_iff.mp balanced).2
  stays_iff _ above := iff_of_true ((balanced_iff.mp balanced).1.mono above) trivial

theorem append {depth : Nat} {first second : List Token} {firstStops secondStops : List Stop}
    (firstFramed : Framed depth first firstStops) (secondFramed : Framed depth second secondStops) :
    Framed depth (first ++ second) (firstStops ++ secondStops) where
  net_eq := by rw [net_append, excessOf_append, firstFramed.net_eq, secondFramed.net_eq]
  stays_iff excess above := by
    rw [stays_append, covered_append, ← firstFramed.stays_iff excess above, firstFramed.net_eq,
      Int.add_assoc]
    refine and_congr_right fun stays => secondFramed.stays_iff _ ?_
    have finish := stays.finish
    rw [firstFramed.net_eq] at finish
    omega

/-- A pair of brackets around framed tokens has one stop more, behind the closing one. -/
theorem enclosed {depth : Nat} {opener closer : Token} {inner : List Token} {stops : List Stop}
    (opens : opener.isOpener) (framed : Framed (depth + 1) inner stops) (closes : closer.isCloser) :
    Framed depth (opener :: (inner ++ [closer])) (stops ++ [⟨depth, []⟩]) where
  net_eq := by
    simp only [net_cons, net_append, net_nil, excessOf_append, excessOf_cons, excessOf_nil,
      Token.step_of_isOpener opens, Token.step_of_isCloser closes, framed.net_eq]
    omega
  stays_iff excess above := by
    have inside : (depth : Int) + excess + 1 = ((depth + 1 : Nat) : Int) + excess := by omega
    simp only [Stays, stays_append, covered_append, Covered, Token.step_of_isOpener opens,
      Token.step_of_isCloser closes, inside, framed.net_eq]
    rw [framed.stays_iff excess (by omega)]
    constructor
    · rintro ⟨-, covered, -, closing⟩
      exact ⟨covered, by omega, trivial⟩
    · rintro ⟨covered, closing, -⟩
      exact ⟨above, covered, by omega, by omega⟩

end Framed

/-- A framed list of its own is balanced exactly when its stops are covered and leave no
excess. -/
theorem Framed.balanced_iff_covered {tokens : List Token} {stops : List Stop}
    (framed : Framed 0 tokens stops) : Balanced tokens ↔ Covered 0 stops ∧ excessOf stops = 0 := by
  rw [balanced_iff, framed.net_eq, ← framed.stays_iff 0 (Int.le_refl 0)]
  exact Iff.rfl

end GoApiDoc.Go
