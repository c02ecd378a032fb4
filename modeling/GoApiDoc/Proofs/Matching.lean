/-
This file says where skipping over brackets stops. Skipping counts: an opening bracket of any
shape is one more, a closing one of any shape is one less, and it stops where the count is back at
zero. So it stops at the first closer with as many closers as openers up to there, and it fails
exactly when there is no such closer.

Counting does not look at shapes. Where the brackets are properly nested it does not have to: a
nested run is balanced at every depth, so the first closer at which the count is back at zero is
the partner of the opener. What the run is followed by plays no part in it.
-/

import GoApiDoc.Go.Source
import GoApiDoc.Proofs.Brackets

namespace GoApiDoc.Go

open Text

/-! ### Closers at which the count is back at zero -/

/-- The closer behind `inner` makes as many closers as openers, counted from the opener on. -/
structure ClosesBehind (opener : Token) (inner : List Token) (closer : Token) : Prop where
  closes : closer.isCloser
  level : (opener :: (inner ++ [closer])).countP Token.isOpener =
    (opener :: (inner ++ [closer])).countP Token.isCloser

theorem closesBehind_iff {opener closer : Token} {inner : List Token} (opens : opener.isOpener) :
    ClosesBehind opener inner closer ↔ closer.isCloser ∧ net inner = 0 := by
  have whole : closer.isCloser →
      net (opener :: (inner ++ [closer])) = net inner := by
    intro closes
    rw [net_cons, net_append, net_cons, net_nil, Token.step_of_isOpener opens,
      Token.step_of_isCloser closes]
    omega
  have counts := net_eq_counts (opener :: (inner ++ [closer]))
  constructor
  · rintro ⟨closes, level⟩
    rw [whole closes, level, Int.sub_self] at counts
    exact ⟨closes, counts⟩
  · rintro ⟨closes, level⟩
    rw [whole closes, level] at counts
    exact ⟨closes, by omega⟩

/-- The closer is the first one at which the count is back at zero; `behind` are the tokens behind
it. -/
structure FirstCloser (opener : Token) (rest inner : List Token) (closer : Token)
    (behind : List Token) : Prop where
  split : rest = inner ++ closer :: behind
  closes : ClosesBehind opener inner closer
  first : ∀ front other tail, inner = front ++ other :: tail → ¬ ClosesBehind opener front other

/-- A run that falls below the level has a first closer that takes it there. -/
theorem exists_of_not_stays {level : Nat} {tokens : List Token} (falls : ¬ Stays level tokens) :
    ∃ front closer tail, tokens = front ++ closer :: tail ∧ closer.isCloser ∧
      Stays level front ∧ net front = -level := by
  induction tokens generalizing level with
  | nil => exact absurd (Int.natCast_nonneg level) falls
  | cons token rest inductionHypothesis =>
    have below : ¬ Stays (level + token.step) rest :=
      fun stays => falls ⟨Int.natCast_nonneg level, stays⟩
    have later : ∀ next : Nat, (level : Int) + token.step = next →
        ∃ front closer tail, token :: rest = front ++ closer :: tail ∧ closer.isCloser ∧
          Stays level front ∧ net front = -level := by
      intro next moved
      rw [moved] at below
      obtain ⟨front, closer, tail, rfl, closes, stays, net⟩ := inductionHypothesis below
      refine ⟨token :: front, closer, tail, rfl, closes, ⟨Int.natCast_nonneg level, ?_⟩, ?_⟩
      · rw [moved]
        exact stays
      · rw [net_cons, net]
        omega
    by_cases opens : token.isOpener
    · exact later (level + 1) (by rw [Token.step_of_isOpener opens]; omega)
    by_cases closes : token.isCloser
    · cases level with
      | zero => exact ⟨[], token, rest, rfl, closes, Int.le_refl 0, rfl⟩
      | succ level => exact later level (by rw [Token.step_of_isCloser closes]; omega)
    · have step : token.step = 0 := by
        unfold Token.step
        rw [if_neg opens, if_neg closes]
      exact later level (by rw [step, Int.add_zero])

/-- Up to the first closer the count stays at or above zero, and the other way round. -/
theorem firstCloser_iff {opener closer : Token} {rest inner behind : List Token}
    (opens : opener.isOpener) :
    FirstCloser opener rest inner closer behind ↔
      rest = inner ++ closer :: behind ∧ closer.isCloser ∧ Stays 0 inner ∧ net inner = 0 := by
  constructor
  · rintro ⟨split, closing, first⟩
    obtain ⟨closes, level⟩ := (closesBehind_iff opens).mp closing
    refine ⟨split, closes, Decidable.byContradiction fun falls => ?_, level⟩
    obtain ⟨front, other, tail, same, closesEarlier, -, net⟩ :=
      exists_of_not_stays falls
    exact first front other tail same ((closesBehind_iff opens).mpr ⟨closesEarlier, net⟩)
  · rintro ⟨split, closes, stays, level⟩
    refine ⟨split, (closesBehind_iff opens).mpr ⟨closes, level⟩, ?_⟩
    rintro front other tail rfl earlier
    obtain ⟨closesEarlier, levelEarlier⟩ := (closesBehind_iff opens).mp earlier
    -- One closer more takes the count below zero.
    have above := stays_iff_fronts.mp stays (front ++ [other]) ⟨tail, by simp⟩
    rw [net_append, net_cons, net_nil, Token.step_of_isCloser closesEarlier] at above
    omega

/-! ### Skipping -/

/-- What is skipped stands before the first closer at which the count is back at zero. -/
theorem skipBalanced_eq_ok_iff {opener : Token} {rest inner : List Token} {used : Nat}
    (opens : opener.isOpener) :
    skipBalanced (opener :: rest) = .ok (inner, used) ↔
      used = inner.length + 2 ∧ ∃ closer behind, FirstCloser opener rest inner closer behind := by
  simp only [firstCloser_iff opens]
  rw [skipBalanced, if_pos opens]
  constructor
  · intro read
    cases inside : insideBrackets 0 rest with
    | none => simp [inside] at read
    | some found =>
      simp only [inside, Except.ok.injEq, Prod.mk.injEq] at read
      obtain ⟨rfl, rfl⟩ := read
      exact ⟨rfl, insideBrackets_eq_some inside⟩
  · rintro ⟨rfl, closer, behind, rfl, closes, stays, level⟩
    rw [insideBrackets_of_stays stays level closes]

/-- Some closer is the first one wherever there is any. -/
theorem exists_firstCloser {opener closer : Token} {inner : List Token} (behind : List Token)
    (opens : opener.isOpener) (closes : ClosesBehind opener inner closer) :
    ∃ front first tail, FirstCloser opener (inner ++ closer :: behind) front first tail := by
  simp only [firstCloser_iff opens]
  obtain ⟨closing, level⟩ := (closesBehind_iff opens).mp closes
  by_cases stays : Stays 0 inner
  · exact ⟨inner, closer, behind, rfl, closing, stays, level⟩
  · obtain ⟨front, first, tail, rfl, closesEarlier, stays, net⟩ :=
      exists_of_not_stays stays
    refine ⟨front, first, tail ++ closer :: behind, ?_, closesEarlier, stays, net⟩
    rw [List.append_assoc, List.cons_append]

/-- At an opener there is nothing else to go wrong than that it is not closed. -/
theorem skipBalanced_eq_error {opener : Token} {rest : List Token} {fault : ReadFault}
    (opens : opener.isOpener) (failed : skipBalanced (opener :: rest) = .error fault) :
    fault = .unbalanced opener := by
  rw [skipBalanced, if_pos opens] at failed
  split at failed
  · cases failed
  · exact (Except.error.inj failed).symm

theorem skipBalanced_isOk_iff {opener : Token} {rest : List Token} (opens : opener.isOpener) :
    (∃ result, skipBalanced (opener :: rest) = .ok result) ↔
      ∃ inner closer behind, rest = inner ++ closer :: behind ∧
        ClosesBehind opener inner closer := by
  constructor
  · rintro ⟨⟨inner, used⟩, read⟩
    obtain ⟨-, closer, behind, first⟩ := (skipBalanced_eq_ok_iff opens).mp read
    exact ⟨inner, closer, behind, first.split, first.closes⟩
  · rintro ⟨inner, closer, behind, rfl, closes⟩
    obtain ⟨front, first, tail, isFirst⟩ := exists_firstCloser behind opens closes
    exact ⟨_, (skipBalanced_eq_ok_iff opens).mpr ⟨rfl, first, tail, isFirst⟩⟩

/-! ### Nested runs -/

/-- The closer has the shape of the opener. -/
def Token.ClosedBy (opener closer : Token) : Prop :=
  opener.kind = .op ∧ closer.kind = .op ∧
    (opener.text, closer.text) ∈ [("(", ")"), ("[", "]"), ("\x7b", "\x7d")]

theorem Token.ClosedBy.isOpener {opener closer : Token} (closed : opener.ClosedBy closer) :
    opener.isOpener := by
  obtain ⟨kind, -, shape⟩ := closed
  simp only [List.mem_cons, Prod.mk.injEq, List.not_mem_nil, or_false] at shape
  obtain ⟨text, -⟩ | ⟨text, -⟩ | ⟨text, -⟩ := shape <;> simp [Token.isOpener, kind, text]

theorem Token.ClosedBy.isCloser {opener closer : Token} (closed : opener.ClosedBy closer) :
    closer.isCloser := by
  obtain ⟨-, kind, shape⟩ := closed
  simp only [List.mem_cons, Prod.mk.injEq, List.not_mem_nil, or_false] at shape
  obtain ⟨-, text⟩ | ⟨-, text⟩ | ⟨-, text⟩ := shape <;> simp [Token.isCloser, kind, text]

/-- Runs of tokens whose brackets are properly nested: each opener has a closer of its own shape
behind a nested run, its partner. -/
inductive Nested : List Token → Prop
  | nil : Nested []
  | plain {token : Token} {rest : List Token} (unopening : token.isOpener = false)
      (unclosing : token.isCloser = false) (nested : Nested rest) : Nested (token :: rest)
  | pair {opener closer : Token} {inner rest : List Token} (closed : opener.ClosedBy closer)
      (inside : Nested inner) (nested : Nested rest) :
      Nested (opener :: (inner ++ closer :: rest))

/-- In a run that starts with the opener, the closer is its partner: they have one shape, and what
stands between them and behind them is nested. -/
structure Partner (opener : Token) (inner : List Token) (closer : Token) (tail run : List Token) :
    Prop where
  split : run = opener :: (inner ++ closer :: tail)
  closed : opener.ClosedBy closer
  inside : Nested inner
  behind : Nested tail

theorem Nested.balanced {run : List Token} (nested : Nested run) : Balanced run := by
  rw [balanced_iff]
  induction nested with
  | nil => exact ⟨Int.le_refl 0, rfl⟩
  | @plain token rest unopening unclosing _ inductionHypothesis =>
    have step : token.step = 0 := by simp [Token.step, unopening, unclosing]
    refine ⟨⟨Int.le_refl 0, ?_⟩, ?_⟩
    · rw [step]
      exact inductionHypothesis.1
    · rw [net_cons, step, inductionHypothesis.2, Int.zero_add]
  | @pair opener closer inner rest closed _ _ insideHypothesis behindHypothesis =>
    have opening := Token.step_of_isOpener closed.isOpener
    have closing := Token.step_of_isCloser closed.isCloser
    obtain ⟨staysInside, levelInside⟩ := insideHypothesis
    obtain ⟨staysBehind, levelBehind⟩ := behindHypothesis
    refine ⟨⟨Int.le_refl 0, stays_append.mpr ⟨staysInside.mono ?_, ?_, ?_⟩⟩, ?_⟩
    · omega
    · omega
    · rw [opening, closing, levelInside]
      exact staysBehind
    · rw [net_cons, net_append, net_cons, opening, closing, levelInside, levelBehind]
      rfl

/-- A nested run that starts with an opener has its partner. -/
theorem Nested.exists_partner {opener : Token} {rest : List Token}
    (nested : Nested (opener :: rest)) (opens : opener.isOpener) :
    ∃ inner closer tail, Partner opener inner closer tail (opener :: rest) := by
  cases nested with
  | plain unopening => exact absurd opens (ne_true_of_eq_false unopening)
  | pair closed inside behind => exact ⟨_, _, _, rfl, closed, inside, behind⟩

/-- The partner is the first closer at which the count is back at zero, whatever follows the
run. -/
theorem Partner.firstCloser {opener closer : Token} {inner tail run : List Token}
    (partner : Partner opener inner closer tail run) {rest more : List Token}
    (starts : opener :: rest = run ++ more) :
    FirstCloser opener rest inner closer (tail ++ more) := by
  obtain ⟨stays, level⟩ := balanced_iff.mp partner.inside.balanced
  refine (firstCloser_iff partner.closed.isOpener).mpr ⟨?_, partner.closed.isCloser, stays, level⟩
  rw [partner.split, List.cons_append, List.append_assoc, List.cons_append] at starts
  exact (List.cons.inj starts).2

/-! ### Where skipping stops -/

/-- At an opener, skipping succeeds exactly when some closer behind it brings the count of brackets
back to zero. It then returns the tokens before the first such closer and goes on just behind it;
if the tokens from the opener on begin with a nested run, that closer is the partner of the opener.
Otherwise it fails with the text and the line of the opener. -/
theorem skipBalanced_stops (opener : Token) (rest : List Token) (opens : opener.isOpener) :
    ((∃ result, skipBalanced (opener :: rest) = .ok result) ↔
      ∃ inner closer behind, rest = inner ++ closer :: behind ∧
        ClosesBehind opener inner closer) ∧
    (∀ inner used, skipBalanced (opener :: rest) = .ok (inner, used) →
      ∃ closer behind, FirstCloser opener rest inner closer behind ∧
        used = inner.length + 2 ∧ (opener :: rest).drop used = behind) ∧
    (∀ run more, opener :: rest = run ++ more → run ≠ [] → Nested run →
      ∃ inner closer tail, Partner opener inner closer tail run ∧
        FirstCloser opener rest inner closer (tail ++ more) ∧
        skipBalanced (opener :: rest) = .ok (inner, inner.length + 2)) ∧
    (∀ fault, skipBalanced (opener :: rest) = .error fault →
      fault = .unbalanced opener ∧ ∀ path last,
        SourceFault.message path ⟨fault, fault.line last⟩ =
          failedToInterpret path (some opener.line) ("unbalanced " ++ quoted opener.text)) := by
  refine ⟨skipBalanced_isOk_iff opens, ?_, ?_, ?_⟩
  · intro inner used read
    obtain ⟨rfl, closer, behind, first⟩ := (skipBalanced_eq_ok_iff opens).mp read
    refine ⟨closer, behind, first, rfl, ?_⟩
    rw [first.split, List.drop_succ_cons, List.drop_length_add_append, List.drop_succ_cons,
      List.drop_zero]
  · intro run more starts full nested
    obtain ⟨head, run, rfl⟩ := List.exists_cons_of_ne_nil full
    obtain ⟨rfl, -⟩ := List.cons.inj starts
    obtain ⟨inner, closer, tail, partner⟩ := nested.exists_partner opens
    have first := partner.firstCloser starts
    exact ⟨inner, closer, tail, partner, first,
      (skipBalanced_eq_ok_iff opens).mpr ⟨rfl, closer, tail ++ more, first⟩⟩
  · intro fault failed
    obtain rfl := skipBalanced_eq_error opens failed
    exact ⟨rfl, fun _ _ => rfl⟩

/-- A brace with brackets of the other shapes nested inside, and closers behind that belong to
nothing. -/
theorem skipBalanced_stops_nested :
    let opener : Token := ⟨.op, "\x7b", 1⟩
    let run : List Token := [opener, ⟨.op, "(", 1⟩, ⟨.ident, "x", 1⟩, ⟨.op, "[", 2⟩, ⟨.op, "]", 2⟩,
      ⟨.op, ")", 2⟩, ⟨.op, "\x7d", 3⟩]
    let more : List Token := [⟨.op, ")", 3⟩, ⟨.op, "]", 4⟩]
    opener.isOpener ∧ Nested run ∧ ∃ inner closer tail, Partner opener inner closer tail run ∧
      skipBalanced (run ++ more) = .ok (inner, inner.length + 2) := by
  intro opener run more
  have closed : ∀ pair ∈ [("(", ")"), ("[", "]"), ("\x7b", "\x7d")], ∀ first second : Nat,
      Token.ClosedBy ⟨.op, pair.1, first⟩ ⟨.op, pair.2, second⟩ :=
    fun pair member _ _ => ⟨rfl, rfl, member⟩
  have square : Nested [⟨.op, "[", 2⟩, ⟨.op, "]", 2⟩] :=
    .pair (closed ("[", "]") (by simp) 2 2) .nil .nil
  have round : Nested [⟨.op, "(", 1⟩, ⟨.ident, "x", 1⟩, ⟨.op, "[", 2⟩, ⟨.op, "]", 2⟩,
      ⟨.op, ")", 2⟩] :=
    .pair (closed ("(", ")") (by simp) 1 2) (.plain rfl rfl square) .nil
  have nested : Nested run := .pair (closed ("\x7b", "\x7d") (by simp) 1 3) round .nil
  obtain ⟨inner, closer, tail, partner, -, read⟩ :=
    (skipBalanced_stops opener (run.tail ++ more) rfl).2.2.1 run more rfl nofun nested
  exact ⟨rfl, nested, inner, closer, tail, partner, read⟩

/-- Shapes are not compared where the run is not nested. -/
example : skipBalanced [⟨.op, "(", 1⟩, ⟨.op, "]", 1⟩] = .ok ([], 2) :=
  rfl

end GoApiDoc.Go
