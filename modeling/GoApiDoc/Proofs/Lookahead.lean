/-
This file says that no production looks past the end of a statement. When the last token is a
semicolon, a production that succeeds leaves that semicolon unread, and it reads the same if more
tokens follow: every token it looked at is still there, and the semicolon stops it as the end of
the tokens would not have. The initialisers of a value are the exception, since an open bracket
takes them over any semicolon; they are read alike only if they did not come to the end.

So the declarations of tokens that end a statement are read apart from those of the tokens behind
them.
-/

import GoApiDoc.Proofs.Moving
import GoApiDoc.Proofs.Nesting

namespace GoApiDoc.Go

/-! ### The end of a statement -/

/-- The last token is a semicolon. -/
def Terminated (tokens : List Token) : Prop :=
  ∃ line, tokens.getLast? = some (.terminator line)

namespace Terminated

theorem ne_nil {tokens : List Token} (terminated : Terminated tokens) : tokens ≠ [] := by
  rintro rfl
  obtain ⟨line, last⟩ := terminated
  simp at last

/-- A rest that is not empty ends as the whole does. -/
theorem drop {tokens : List Token} (terminated : Terminated tokens) {count : Nat}
    (less : count < tokens.length) : Terminated (tokens.drop count) := by
  obtain ⟨line, last⟩ := terminated
  refine ⟨line, ?_⟩
  rw [List.getLast?_drop, if_neg (Nat.not_le.mpr less), last]

theorem tail {token : Token} {rest : List Token} (terminated : Terminated (token :: rest))
    (other : ∀ line, token ≠ .terminator line) : Terminated rest := by
  obtain ⟨line, last⟩ := terminated
  cases rest with
  | nil => exact absurd (Option.some.inj last) (other line)
  | cons next rest =>
    rw [List.getLast?_cons_cons] at last
    exact ⟨line, last⟩

/-- Behind any token but a semicolon there is more. -/
theorem tail_of_kind {token : Token} {rest : List Token} (terminated : Terminated (token :: rest))
    (kind : token.kind ≠ .semicolon) : Terminated rest :=
  terminated.tail fun _ same => kind (same ▸ rfl)

theorem tail_of_is {token : Token} {rest : List Token} (terminated : Terminated (token :: rest))
    {text : String} (is : token.is text) (other : text ≠ ";") : Terminated rest := by
  refine terminated.tail fun line same => other ?_
  rw [same, Token.is, Bool.and_eq_true, beq_iff_eq] at is
  exact is.1.symm

theorem suffix {tokens rest : List Token} (terminated : Terminated tokens)
    (inside : rest <:+ tokens) (full : rest ≠ []) : Terminated rest := by
  have positive := List.length_pos_iff.mpr full
  have le := inside.length_le
  rw [List.suffix_iff_eq_drop.mp inside]
  exact terminated.drop (by omega)

/-- A token other than the semicolon is followed by one. -/
theorem lt_of_nextIs {tokens : List Token} (terminated : Terminated tokens) {text : String}
    {count : Nat} (next : nextIs text (tokens.drop count)) (other : text ≠ ";") :
    count + 1 < tokens.length := by
  obtain ⟨token, rest, behind, is⟩ := nextIs_eq_true.mp next
  have length := congrArg List.length behind
  rw [List.length_drop, List.length_cons] at length
  have ends : Terminated (tokens.drop count) := terminated.drop (by omega)
  rw [behind] at ends
  have positive := List.length_pos_iff.mpr (ends.tail_of_is is other).ne_nil
  omega

/-- What stays below the end of a rest stays below the end of the whole. -/
theorem drop_lt {tokens : List Token} (terminated : Terminated tokens) {count used : Nat}
    (full : tokens.drop count ≠ [])
    (less : Terminated (tokens.drop count) → used < (tokens.drop count).length) :
    count + used < tokens.length := by
  have left := less (terminated.suffix (List.drop_suffix count tokens) full)
  rw [List.length_drop] at left
  omega

end Terminated

/-! ### Reading with more behind -/

/-- The second reading has the result of the first, unless that is a fault. -/
def Keeps {Value : Type} (first second : Except ReadFault Value) : Prop :=
  ∀ value, first = .ok value → second = .ok value

namespace Keeps

theorem refl {Value : Type} (read : Except ReadFault Value) : Keeps read read :=
  fun _ same => same

theorem fault {Value : Type} (fault : ReadFault) (read : Except ReadFault Value) :
    Keeps (.error fault) read :=
  nofun

/-- Readings one after the other keep their result if each does, the later one for the value of the
first. -/
theorem bind {First Value : Type} {read longer : Except ReadFault First}
    {next other : First → Except ReadFault Value} (keeps : Keeps read longer)
    (each : ∀ value, read = .ok value → Keeps (next value) (other value)) :
    Keeps (read >>= next) (longer >>= other) := by
  intro result found
  obtain ⟨value, first, second⟩ := bind_eq_ok.mp found
  exact bind_eq_ok.mpr ⟨value, keeps value first, each value first result second⟩

theorem map {First Value : Type} {read longer : Except ReadFault First} (keeps : Keeps read longer)
    (finish : First → Value) : Keeps (read.map finish) (longer.map finish) := by
  intro result found
  cases read with
  | error fault => simp [Except.map] at found
  | ok value =>
    rw [keeps value rfl]
    exact found

/-- The branch is taken by a test that looks at no token further back. -/
theorem ite {Value : Type} {condition : Prop} [Decidable condition]
    {first second firstLonger secondLonger : Except ReadFault Value}
    (holds : condition → Keeps first firstLonger)
    (fails : ¬ condition → Keeps second secondLonger) :
    Keeps (if condition then first else second)
      (if condition then firstLonger else secondLonger) := by
  split
  · next yes => exact holds yes
  · next no => exact fails no

end Keeps

section

variable {tokens : List Token} (more : List Token)

/-- The next token is told without what stands behind, if there is one. -/
theorem nextIs_append (full : tokens ≠ []) (text : String) :
    nextIs text (tokens ++ more) = nextIs text tokens := by
  cases tokens with
  | nil => exact absurd rfl full
  | cons token rest => rfl

theorem startsType_append (full : tokens ≠ []) :
    startsType (tokens ++ more) = startsType tokens := by
  cases tokens with
  | nil => exact absurd rfl full
  | cons token rest => rfl

theorem expect_append (full : tokens ≠ []) (text : String) :
    expect text (tokens ++ more) = expect text tokens := by
  cases tokens with
  | nil => exact absurd rfl full
  | cons token rest => rfl

theorem identifier_append (full : tokens ≠ []) :
    identifier (tokens ++ more) = identifier tokens := by
  cases tokens with
  | nil => exact absurd rfl full
  | cons token rest => rfl

end

/-! ### Bracketed runs -/

/-- The closing bracket is found where it was. -/
theorem insideBrackets_append {depth : Nat} {tokens inner : List Token}
    (inside : insideBrackets depth tokens = some inner) (more : List Token) :
    insideBrackets depth (tokens ++ more) = some inner := by
  induction tokens generalizing depth inner with
  | nil => simp [insideBrackets] at inside
  | cons token rest inductionHypothesis =>
    have tail : ∀ depth, (insideBrackets depth rest).map (token :: ·) = some inner →
        (insideBrackets depth (rest ++ more)).map (token :: ·) = some inner := by
      intro depth found
      obtain ⟨others, insideRest, rfl⟩ := Option.map_eq_some_iff.mp found
      rw [inductionHypothesis insideRest]
      rfl
    rw [List.cons_append]
    unfold insideBrackets at inside ⊢
    split
    · next opens =>
      rw [if_pos opens] at inside
      exact tail _ inside
    · next unopened =>
      rw [if_neg unopened] at inside
      split
      · next closes =>
        rw [if_pos closes] at inside
        cases depth with
        | zero => exact inside
        | succ depth => exact tail depth inside
      · next inner =>
        rw [if_neg inner] at inside
        exact tail depth inside

/-- The closing bracket is no semicolon, so it is not the last token. -/
theorem insideBrackets_lt {depth : Nat} {tokens inner : List Token} (terminated : Terminated tokens)
    (inside : insideBrackets depth tokens = some inner) : inner.length + 1 < tokens.length := by
  induction tokens generalizing depth inner with
  | nil => simp [insideBrackets] at inside
  | cons token rest inductionHypothesis =>
    have tail : ∀ depth, (insideBrackets depth rest).map (token :: ·) = some inner →
        inner.length + 1 < (token :: rest).length := by
      intro depth found
      obtain ⟨others, insideRest, rfl⟩ := Option.map_eq_some_iff.mp found
      have full : 0 < rest.length := by
        refine List.length_pos_iff.mpr ?_
        rintro rfl
        simp [insideBrackets] at insideRest
      have ends : Terminated rest := terminated.drop (Nat.succ_lt_succ full)
      have less := inductionHypothesis ends insideRest
      rw [List.length_cons, List.length_cons]
      omega
    unfold insideBrackets at inside
    split at inside
    · exact tail _ inside
    · split at inside
      · next closes =>
        cases depth with
        | zero =>
          obtain rfl := Option.some.inj inside
          have kind : token.kind ≠ .semicolon := by
            rw [Token.isCloser, Bool.and_eq_true, beq_iff_eq] at closes
            rw [closes.1]
            decide
          have full := List.length_pos_iff.mpr (terminated.tail_of_kind kind).ne_nil
          rw [List.length_cons, List.length_nil]
          omega
        | succ depth => exact tail depth inside
      · exact tail depth inside

/-- A bracketed run ends before the semicolon. -/
theorem skipBalanced_lt {tokens inner : List Token} {used : Nat} (terminated : Terminated tokens)
    (read : skipBalanced tokens = .ok (inner, used)) : used < tokens.length := by
  obtain ⟨opener, rest, rfl, opens, inside, rfl⟩ := skipBalanced_eq_ok read
  have kind : opener.kind ≠ .semicolon := by
    rw [Token.isOpener, Bool.and_eq_true, beq_iff_eq] at opens
    rw [opens.1]
    decide
  have less := insideBrackets_lt (terminated.tail_of_kind kind) inside
  rw [List.length_cons]
  omega

/-- A bracketed run is skipped up to its own closing bracket, whatever follows. -/
theorem skipBalanced_keeps (tokens more : List Token) :
    Keeps (skipBalanced tokens) (skipBalanced (tokens ++ more)) := by
  rintro ⟨inner, used⟩ read
  obtain ⟨opener, rest, rfl, opens, inside, rfl⟩ := skipBalanced_eq_ok read
  rw [List.cons_append, skipBalanced, if_pos opens, insideBrackets_append inside]

/-! ### Types -/

/-- No type starts with a semicolon. -/
theorem kind_of_typeRef {token : Token} {rest : List Token} {type : TypeRef} {used : Nat}
    (read : typeRef (token :: rest) = .ok (type, used)) : token.kind ≠ .semicolon := by
  intro kind
  simp [typeRef.eq_def, kind] at read

theorem ne_nil_of_skipBalanced {tokens inner : List Token} {used : Nat}
    (read : skipBalanced tokens = .ok (inner, used)) : tokens ≠ [] := by
  obtain ⟨opener, rest, rfl, -⟩ := skipBalanced_eq_ok read
  exact List.cons_ne_nil opener rest

theorem ne_nil_of_typeRef {tokens : List Token} {type : TypeRef} {used : Nat}
    (read : typeRef tokens = .ok (type, used)) : tokens ≠ [] := by
  rintro rfl
  simp [typeRef] at read

/-- A type ends before the semicolon: whatever token it ends with is another one. -/
theorem typeRef_lt {tokens : List Token} {type : TypeRef} {used : Nat}
    (terminated : Terminated tokens) (read : typeRef tokens = .ok (type, used)) :
    used < tokens.length := by
  induction tokens using drop_induction generalizing type used with
  | nil => exact absurd rfl terminated.ne_nil
  | cons token rest behind =>
    have ends := terminated.tail_of_kind (kind_of_typeRef read)
    have positive := List.length_pos_iff.mpr ends.ne_nil
    refine (typeForm_of_typeRef read).add_le_length positive ?_ ?_ ?_ ?_
    · intro count type used inner
      exact ends.drop_lt (ne_nil_of_typeRef inner) fun ends => behind count ends inner
    · intro count inner used skip
      exact ends.drop_lt (ne_nil_of_skipBalanced skip) fun ends => skipBalanced_lt ends skip
    · intro count closed
      exact ends.lt_of_nextIs closed (by decide)
    · rintro dot name tail rfl isDot kind
      have others := (ends.tail_of_is isDot (by decide)).tail_of_kind (by rw [kind]; decide)
      exact List.length_pos_iff.mpr others.ne_nil

theorem typeRef_drop_lt {rest : List Token} {count used : Nat} {type : TypeRef}
    (ends : Terminated rest) (read : typeRef (rest.drop count) = .ok (type, used)) :
    count + used < rest.length :=
  ends.drop_lt (ne_nil_of_typeRef read) fun ends => typeRef_lt ends read

theorem drop_ne_nil {tokens : List Token} {count : Nat} (less : count < tokens.length) :
    tokens.drop count ≠ [] := by
  rw [Ne, List.drop_eq_nil_iff]
  omega

/-- What follows a name of any length. -/
theorem afterName_keeps {length : Nat} {tokens : List Token} (less : length < tokens.length)
    (ref : TypeRef) (more : List Token) :
    Keeps (if nextIs "[" (tokens.drop length) = true then do
        let (_, arguments) ← skipBalanced (tokens.drop length)
        return (TypeRef.other (Token.join (tokens.take (length + arguments))), length + arguments)
      else pure (ref, length))
      (if nextIs "[" ((tokens ++ more).drop length) = true then do
        let (_, arguments) ← skipBalanced ((tokens ++ more).drop length)
        return (TypeRef.other (Token.join ((tokens ++ more).take (length + arguments))),
          length + arguments)
      else pure (ref, length) : Except ReadFault (TypeRef × Nat)) := by
  rw [List.drop_append_of_le_length (Nat.le_of_lt less), nextIs_append more (drop_ne_nil less)]
  refine Keeps.ite (fun _ => ?_) fun _ => Keeps.refl _
  refine Keeps.bind (skipBalanced_keeps _ more) ?_
  rintro ⟨inner, arguments⟩ skip
  obtain ⟨-, reads⟩ : _ ∧ Reads 0 _ _ _ := reads_of_skipBalanced skip
  have le := reads.le_length
  rw [List.length_drop] at le
  have whole : length + arguments ≤ tokens.length := by omega
  simp only [List.take_append_of_le_length whole]
  exact Keeps.refl _

/-- A name looks two tokens ahead for a package, and then for type arguments. -/
theorem typeRef_keeps_of_ident {token : Token} {rest : List Token} (kind : token.kind = .ident)
    (ends : Terminated rest) (more : List Token) :
    Keeps (typeRef (token :: rest)) (typeRef (token :: rest ++ more)) := by
  have full := List.length_pos_iff.mpr ends.ne_nil
  have short : 1 < (token :: rest).length := by
    rw [List.length_cons]
    omega
  rw [List.cons_append, typeRef.eq_def, typeRef.eq_def (token :: (rest ++ more))]
  simp only [kind]
  cases rest with
  | nil => exact absurd rfl ends.ne_nil
  | cons dot tail =>
    cases tail with
    | nil =>
      obtain ⟨line, last⟩ := ends
      obtain rfl := Option.some.inj last
      have named : ∀ name : Token, ¬ ((Token.terminator line).is "." ∧ name.kind = .ident) :=
        fun name both => absurd both.1 (by simp [Token.is, Token.terminator])
      cases more with
      | nil => exact afterName_keeps short _ []
      | cons name more =>
        simp only [List.singleton_append, if_neg (named name)]
        exact afterName_keeps short _ (name :: more)
    | cons name tail =>
      simp only [List.cons_append]
      by_cases both : dot.is "." ∧ name.kind = .ident
      · rw [if_pos both]
        have others := (ends.tail_of_is both.1 (by decide)).tail_of_kind (by rw [both.2]; decide)
        have long : 3 < (token :: dot :: name :: tail).length := by
          have more := List.length_pos_iff.mpr others.ne_nil
          simp only [List.length_cons]
          omega
        exact afterName_keeps long _ more
      · rw [if_neg both]
        exact afterName_keeps short _ more

/-- A production that wants a token is read alike from any place on. -/
theorem Keeps.drop {Value : Type} {read : List Token → Except ReadFault Value}
    {rest more : List Token}
    (each : ∀ tokens, tokens <:+ rest → tokens ≠ [] → Keeps (read tokens) (read (tokens ++ more)))
    {fault : ReadFault} (empty : read [] = .error fault) (count : Nat) :
    Keeps (read (rest.drop count)) (read ((rest ++ more).drop count)) := by
  by_cases less : count < rest.length
  · rw [List.drop_append_of_le_length (Nat.le_of_lt less)]
    exact each _ (List.drop_suffix count rest) (drop_ne_nil less)
  · rw [List.drop_of_length_le (Nat.le_of_not_lt less), empty]
    exact Keeps.fault fault _

theorem expect_keeps (text : String) (rest more : List Token) (count : Nat) :
    Keeps (expect text (rest.drop count)) (expect text ((rest ++ more).drop count)) := by
  refine Keeps.drop (fun tokens _ full => ?_) rfl count
  rw [expect_append more full]
  exact Keeps.refl _

theorem skipBalanced_drop_keeps (rest more : List Token) (count : Nat) :
    Keeps (skipBalanced (rest.drop count)) (skipBalanced ((rest ++ more).drop count)) :=
  Keeps.drop (fun tokens _ _ => skipBalanced_keeps tokens more) rfl count

theorem take_append_more {rest : List Token} {count : Nat} (le : count ≤ rest.length)
    (token : Token) (more : List Token) :
    (token :: (rest ++ more)).take (count + 1) = (token :: rest).take (count + 1) := by
  rw [List.take_succ_cons, List.take_succ_cons, List.take_append_of_le_length le]

/-- Pointers, parentheses, sequences and channels, if the types behind the first token are kept. -/
theorem typeRef_keeps_of_op {token : Token} {rest more : List Token} (kind : token.kind = .op)
    (ends : Terminated rest) (tail : ∀ count,
      Keeps (typeRef (rest.drop count)) (typeRef ((rest ++ more).drop count))) :
    Keeps (typeRef (token :: rest)) (typeRef (token :: rest ++ more)) := by
  rw [List.cons_append, typeRef.eq_def, typeRef.eq_def (token :: (rest ++ more))]
  simp only [kind]
  refine Keeps.ite (fun _ => ?_) fun _ => Keeps.ite (fun _ => ?_) fun _ =>
    Keeps.ite (fun _ => ?_) fun _ => Keeps.ite (fun _ => ?_) fun _ => Keeps.fault _ _
  · exact Keeps.bind (tail 0) fun _ _ => Keeps.refl _
  · refine Keeps.bind (tail 0) fun inner _ => ?_
    exact Keeps.bind (expect_keeps ")" rest more inner.2) fun _ _ => Keeps.refl _
  · by_cases closed : (rest.takeWhile fun token => !token.is "]").length = rest.length
    · rw [if_pos closed]
      exact Keeps.fault _ _
    · have run : (rest ++ more).takeWhile (fun token => !token.is "]") =
          rest.takeWhile fun token => !token.is "]" := by
        rw [List.takeWhile_append, if_neg closed]
      have shorter := (List.takeWhile_prefix (l := rest) fun token => !token.is "]").length_le
      have open' : (rest.takeWhile fun token => !token.is "]").length ≠ (rest ++ more).length := by
        rw [List.length_append]
        omega
      rw [if_neg closed, run, if_neg open']
      exact Keeps.bind (tail _) fun _ _ => Keeps.refl _
  · refine Keeps.bind (expect_keeps "chan" rest more 0) fun _ _ => ?_
    refine Keeps.bind (tail 1) ?_
    rintro ⟨element, used⟩ inner
    have less := typeRef_drop_lt ends inner
    rw [take_append_more (by omega)]
    exact Keeps.refl _

/-- Maps, channels and functions, if the types behind the keyword are kept. -/
theorem typeRef_keeps_of_keyword {token : Token} {rest more : List Token}
    (kind : token.kind = .keyword) (ends : Terminated rest) (tail : ∀ count,
      Keeps (typeRef (rest.drop count)) (typeRef ((rest ++ more).drop count))) :
    Keeps (typeRef (token :: rest)) (typeRef (token :: rest ++ more)) := by
  have skip := skipBalanced_drop_keeps rest more
  rw [List.cons_append, typeRef.eq_def, typeRef.eq_def (token :: (rest ++ more))]
  simp only [kind]
  refine Keeps.ite (fun _ => ?_) fun _ => Keeps.ite (fun _ => ?_) fun _ =>
    Keeps.ite (fun _ => ?_) fun _ => Keeps.ite (fun _ => ?_) fun _ => Keeps.fault _ _
  · refine Keeps.bind (expect_keeps "[" rest more 0) fun _ _ => ?_
    refine Keeps.bind (tail 1) fun key _ => ?_
    refine Keeps.bind (expect_keeps "]" rest more _) fun _ _ => ?_
    exact Keeps.bind (tail _) fun _ _ => Keeps.refl _
  · rw [nextIs_append more ends.ne_nil]
    refine Keeps.bind (tail _) ?_
    rintro ⟨element, used⟩ inner
    have less := typeRef_drop_lt ends inner
    rw [take_append_more (by omega)]
    exact Keeps.refl _
  · refine Keeps.bind (skip 0) ?_
    rintro ⟨inner, used⟩ skipped
    have less := skipBalanced_lt ends skipped
    rw [take_append_more (by omega)]
    exact Keeps.refl _
  · refine Keeps.bind (skip 0) ?_
    rintro ⟨inner, parameters⟩ skipped
    have less := skipBalanced_lt ends skipped
    have after := ends.drop less
    rw [List.drop_append_of_le_length (Nat.le_of_lt less), nextIs_append more after.ne_nil,
      startsType_append more after.ne_nil]
    refine Keeps.ite (fun _ => ?_) fun _ => Keeps.ite (fun _ => ?_) fun _ => ?_
    · refine Keeps.bind (skipBalanced_keeps _ more) ?_
      rintro ⟨inner, used⟩ results
      have last := skipBalanced_lt after results
      rw [List.length_drop] at last
      rw [take_append_more (by omega)]
      exact Keeps.refl _
    · rw [← List.drop_append_of_le_length (Nat.le_of_lt less)]
      refine Keeps.bind (tail _) ?_
      rintro ⟨type, used⟩ inner
      have last := typeRef_drop_lt ends inner
      rw [take_append_more (by omega)]
      exact Keeps.refl _
    · rw [take_append_more (by omega)]
      exact Keeps.refl _

/-- A type that is read before a semicolon is read the same with more behind. -/
theorem typeRef_keeps {tokens : List Token} (terminated : Terminated tokens) (more : List Token) :
    Keeps (typeRef tokens) (typeRef (tokens ++ more)) := by
  induction tokens using drop_induction with
  | nil => exact absurd rfl terminated.ne_nil
  | cons token rest behind =>
    rintro ⟨type, used⟩ read
    have ends := terminated.tail_of_kind (kind_of_typeRef read)
    have tail : ∀ count,
        Keeps (typeRef (rest.drop count)) (typeRef ((rest ++ more).drop count)) := by
      refine Keeps.drop (fun tokens inside full => ?_) (by rw [typeRef])
      have same := List.suffix_iff_eq_drop.mp inside
      rw [same] at full ⊢
      exact behind _ (ends.suffix (List.drop_suffix _ _) full)
    cases kind : token.kind with
    | op => exact typeRef_keeps_of_op kind ends tail _ read
    | keyword => exact typeRef_keeps_of_keyword kind ends tail _ read
    | ident => exact typeRef_keeps_of_ident kind ends more _ read
    | number => simp [typeRef.eq_def, kind] at read
    | string => simp [typeRef.eq_def, kind] at read
    | rune => simp [typeRef.eq_def, kind] at read
    | semicolon => simp [typeRef.eq_def, kind] at read

theorem typeRef_drop_keeps {rest : List Token} (ends : Terminated rest) (more : List Token)
    (count : Nat) : Keeps (typeRef (rest.drop count)) (typeRef ((rest ++ more).drop count)) :=
  Keeps.drop (fun _ inside full => typeRef_keeps (ends.suffix inside full) more) (by rw [typeRef])
    count

/-! ### Lists of items -/

/-- The places at which the items of a list start, each given by the tokens from there on. -/
def itemStarts {Item : Type} (closer : String)
    (item : List Token → Except ReadFault (List Item × Nat)) (tokens : List Token) :
    List (List Token) :=
  match tokens with
  | [] => []
  | token :: rest =>
    if token.is closer then []
    else if token.is ";" then itemStarts closer item rest
    else (token :: rest) :: itemStarts closer item
      (rest.drop (usedBy ((item (token :: rest)).map Prod.snd) - 1))
termination_by tokens.length
decreasing_by all_goals (simp +zetaDelta only [List.length_drop, List.length_cons]; omega)

/-- A list of items ends with its closing bracket, which is no semicolon. -/
theorem itemsUntil_lt {Item : Type} {closer : String} {unclosed : ReadFault}
    {item : List Token → Except ReadFault (List Item × Nat)} {tokens : List Token}
    {found : List Item} {used : Nat} (other : closer ≠ ";") (terminated : Terminated tokens)
    (read : itemsUntil closer unclosed item tokens = .ok (found, used)) :
    used < tokens.length := by
  rw [itemsUntil_eq_ok] at read
  induction read with
  | closed closes =>
    have full := List.length_pos_iff.mpr (terminated.tail_of_is closes other).ne_nil
    rw [List.length_cons]
    omega
  | separator goesOn ends others inductionHypothesis =>
    have less := inductionHypothesis (terminated.suffix (List.suffix_cons _ _) others.ne_nil)
    exact Nat.succ_lt_succ less
  | @item token rest own others ownUsed othersUsed goesOn starts readOwn separated behind
      inductionHypothesis =>
    have inside := (List.drop_suffix (ownUsed - 1) rest).trans (List.suffix_cons token rest)
    have less := inductionHypothesis (terminated.suffix inside behind.ne_nil)
    rw [List.length_drop] at less
    rw [List.length_cons]
    omega

/-- A list of items is read alike if each of its items is. -/
theorem itemsUntil_keeps {Item : Type} {closer : String} {unclosed : ReadFault}
    {item : List Token → Except ReadFault (List Item × Nat)} {tokens more : List Token}
    (terminated : Terminated tokens)
    (each : ∀ start ∈ itemStarts closer item tokens, Terminated start →
      Keeps (item start) (item (start ++ more))) :
    Keeps (itemsUntil closer unclosed item tokens)
      (itemsUntil closer unclosed item (tokens ++ more)) := by
  rintro ⟨found, used⟩ read
  rw [itemsUntil_eq_ok] at read ⊢
  induction read with
  | closed closes => exact .closed closes
  | separator goesOn ends others inductionHypothesis =>
    rw [itemStarts, if_neg (ne_true_of_eq_false goesOn), if_pos ends] at each
    have restEnds := terminated.suffix (List.suffix_cons _ _) others.ne_nil
    exact .separator goesOn ends (inductionHypothesis restEnds each)
  | @item token rest own others ownUsed othersUsed goesOn starts readOwn separated behind
      inductionHypothesis =>
    rw [itemStarts, if_neg (ne_true_of_eq_false goesOn), if_neg (ne_true_of_eq_false starts),
      usedBy_map_snd readOwn] at each
    have full := behind.ne_nil
    have inside := (List.drop_suffix (ownUsed - 1) rest).trans (List.suffix_cons token rest)
    have longer := inductionHypothesis (terminated.suffix inside full)
      fun start member => each start (List.mem_cons_of_mem _ member)
    have less : ownUsed - 1 < rest.length := by
      rw [Ne, List.drop_eq_nil_iff] at full
      omega
    rw [List.cons_append]
    refine .item goesOn starts (each _ List.mem_cons_self terminated _ readOwn) ?_ ?_
    · rw [List.drop_append_of_le_length (Nat.le_of_lt less), nextIs_append more full,
        nextIs_append more full]
      exact separated
    · rw [List.drop_append_of_le_length (Nat.le_of_lt less)]
      exact longer

/-! ### Struct fields -/

/-- A list of names goes on behind commas only. -/
theorem identifierList_lt {tokens : List Token} {names : List String} {used : Nat}
    (terminated : Terminated tokens) (read : identifierList tokens = .ok (names, used)) :
    used < tokens.length := by
  rw [identifierList_eq_ok] at read
  induction read with
  | last kind ends =>
    have behind := terminated.tail_of_kind (by rw [kind]; decide)
    exact Nat.succ_lt_succ (List.length_pos_iff.mpr behind.ne_nil)
  | comma kind separates _ less =>
    have behind := terminated.tail_of_kind (by rw [kind]; decide)
    exact Nat.add_lt_add_right (less (behind.tail_of_is separates (by decide))) 2

/-- Names are read the same with more behind: no comma comes at the end. -/
theorem identifierList_keeps {tokens : List Token} (terminated : Terminated tokens)
    (more : List Token) : Keeps (identifierList tokens) (identifierList (tokens ++ more)) := by
  rintro ⟨names, used⟩ read
  rw [identifierList_eq_ok] at read ⊢
  induction read with
  | last kind ends =>
    have behind := terminated.tail_of_kind (by rw [kind]; decide)
    exact .last kind ((nextIs_append more behind.ne_nil ",").trans ends)
  | comma kind separates _ longer =>
    have behind := terminated.tail_of_kind (by rw [kind]; decide)
    exact .comma kind separates (longer (behind.tail_of_is separates (by decide)))

theorem fieldTag_append {tokens : List Token} (full : tokens ≠ []) (more : List Token) :
    fieldTag (tokens ++ more) = fieldTag tokens := by
  cases tokens with
  | nil => exact absurd rfl full
  | cons token rest => rfl

/-- Whether a field is embedded is told from two tokens, and a semicolon is among them if they are
the last. -/
theorem startsEmbedded_append {tokens : List Token} (terminated : Terminated tokens)
    (more : List Token) : startsEmbedded (tokens ++ more) = startsEmbedded tokens := by
  match tokens with
  | [] => exact absurd rfl terminated.ne_nil
  | [token] =>
    obtain ⟨line, last⟩ := terminated
    obtain rfl := Option.some.inj last
    cases more with
    | nil => rfl
    | cons next more => rfl
  | token :: following :: rest => rfl

/-- A field line is read the same with more behind. -/
theorem fieldDeclaration_keeps {tokens : List Token} (terminated : Terminated tokens)
    (more : List Token) : Keeps (fieldDeclaration tokens) (fieldDeclaration (tokens ++ more)) := by
  have tag : ∀ {count}, count < tokens.length →
      fieldTag ((tokens ++ more).drop count) = fieldTag (tokens.drop count) := by
    intro count less
    rw [List.drop_append_of_le_length (Nat.le_of_lt less), fieldTag_append (drop_ne_nil less)]
  unfold fieldDeclaration
  rw [startsEmbedded_append terminated]
  refine Keeps.ite (fun _ => ?_) fun _ => ?_
  · refine Keeps.bind (typeRef_keeps terminated more) ?_
    rintro ⟨type, used⟩ readType
    simp only [tag (typeRef_lt terminated readType)]
    exact Keeps.refl _
  · refine Keeps.bind (identifierList_keeps terminated more) ?_
    rintro ⟨names, namesUsed⟩ readNames
    refine Keeps.bind (typeRef_drop_keeps terminated more namesUsed) ?_
    rintro ⟨type, typeUsed⟩ readType
    simp only [tag (typeRef_drop_lt terminated readType)]
    exact Keeps.refl _

/-- The fields of a struct end with a brace. -/
theorem structFields_lt {tokens : List Token} {fields : List Field} {used : Nat}
    (terminated : Terminated tokens) (read : structFields tokens = .ok (fields, used)) :
    used < tokens.length := by
  obtain ⟨opener, rest, lines, rfl, opens, readLines, rfl⟩ := structFields_eq_ok read
  have less := itemsUntil_lt (by decide) (terminated.tail_of_is opens (by decide)) readLines
  exact Nat.succ_lt_succ less

theorem structFields_keeps {tokens : List Token} (terminated : Terminated tokens)
    (more : List Token) : Keeps (structFields tokens) (structFields (tokens ++ more)) := by
  rintro ⟨fields, used⟩ read
  obtain ⟨opener, rest, lines, rfl, opens, readLines, rfl⟩ := structFields_eq_ok read
  have longer : fieldLines (rest ++ more) = .ok (fields, lines) :=
    itemsUntil_keeps (terminated.tail_of_is opens (by decide))
      (fun start _ ends => fieldDeclaration_keeps ends more) _ readLines
  rw [List.cons_append, structFields, expect, nextIs_cons, if_pos opens, List.drop_one,
    List.tail_cons, longer]
  rfl

/-! ### Type declarations -/

/-- Type parameters are told by two tokens behind the bracket. -/
theorem opensTypeParameters_append {tokens : List Token} (terminated : Terminated tokens)
    (more : List Token) : opensTypeParameters (tokens ++ more) = opensTypeParameters tokens := by
  match tokens with
  | [] => exact absurd rfl terminated.ne_nil
  | [bracket] =>
    obtain ⟨line, last⟩ := terminated
    obtain rfl := Option.some.inj last
    match more with
    | [] => rfl
    | [first] => rfl
    | first :: second :: more => rfl
  | [bracket, first] =>
    obtain ⟨line, last⟩ := terminated
    obtain rfl := Option.some.inj last
    cases more with
    | nil => rfl
    | cons second more => simp [opensTypeParameters, Token.terminator]
  | bracket :: first :: second :: rest => rfl

theorem skipTypeParameters_lt {tokens : List Token} {used : Nat} (terminated : Terminated tokens)
    (read : skipTypeParameters tokens = .ok used) : used < tokens.length := by
  obtain rfl | ⟨skipped, skip⟩ := skipTypeParameters_eq_ok read
  · exact List.length_pos_iff.mpr terminated.ne_nil
  · exact skipBalanced_lt terminated skip

theorem skipTypeParameters_keeps {tokens : List Token} (terminated : Terminated tokens)
    (more : List Token) :
    Keeps (skipTypeParameters tokens) (skipTypeParameters (tokens ++ more)) := by
  unfold skipTypeParameters
  rw [opensTypeParameters_append terminated]
  exact Keeps.ite (fun _ => (skipBalanced_keeps tokens more).map _) fun _ => Keeps.refl _

theorem typeBody_nil : typeBody [] = .error (.unexpected .typeExpression none) := by
  rw [typeBody, typeRef]
  rfl

/-- What is declared of a type ends before the semicolon. -/
theorem typeBody_lt {tokens : List Token} {body : Option (List Field) × Option TypeRef} {used : Nat}
    (terminated : Terminated tokens) (read : typeBody tokens = .ok (body, used)) :
    used < tokens.length := by
  obtain ⟨keyword, rest, fields, bodyUsed, rfl, struct, -, readFields, -, -, rfl⟩ |
    ⟨-, type, readType, -⟩ := typeBody_eq_ok read
  · have ends := terminated.tail_of_is struct (by decide)
    exact Nat.succ_lt_succ (structFields_lt ends readFields)
  · exact typeRef_lt terminated readType

/-- What is declared of a type is read the same with more behind. -/
theorem typeBody_keeps {tokens : List Token} (terminated : Terminated tokens) (more : List Token) :
    Keeps (typeBody tokens) (typeBody (tokens ++ more)) := by
  have struct : (nextIs "struct" (tokens ++ more) && nextIs "\x7b" ((tokens ++ more).drop 1)) =
      (nextIs "struct" tokens && nextIs "\x7b" (tokens.drop 1)) := by
    match tokens with
    | [] => exact absurd rfl terminated.ne_nil
    | [token] =>
      obtain ⟨line, last⟩ := terminated
      obtain rfl := Option.some.inj last
      rfl
    | token :: next :: rest => rfl
  unfold typeBody
  rw [struct]
  refine Keeps.ite (fun _ => ?_) fun _ => ?_
  · have fields : Keeps (structFields (tokens.drop 1)) (structFields ((tokens ++ more).drop 1)) :=
      Keeps.drop (fun _ inside full => structFields_keeps (terminated.suffix inside full) more)
        rfl 1
    exact fields.bind fun _ _ => Keeps.refl _
  · exact (typeRef_keeps terminated more).bind fun _ _ => Keeps.refl _

theorem typeSpec_lt {doc groupDoc : String} {tokens : List Token} {found : TypeDeclaration}
    {used : Nat} (terminated : Terminated tokens)
    (read : typeSpec doc groupDoc tokens = .ok (found, used)) : used < tokens.length := by
  obtain ⟨name, rest, parameters, mark, fields, underlying, bodyUsed, rfl, kind, -, -, readBody, -,
    rfl⟩ := typeSpec_eq_ok read
  have ends := terminated.tail_of_kind (by rw [kind]; decide)
  have some : parameters + mark < rest.length := by
    refine Nat.lt_of_not_le fun past => ?_
    rw [List.drop_of_length_le past, typeBody_nil] at readBody
    nomatch readBody
  have less := typeBody_lt (ends.drop some) readBody
  rw [List.length_drop] at less
  rw [List.length_cons]
  omega

theorem typeSpec_keeps {tokens : List Token} (terminated : Terminated tokens)
    (doc groupDoc : String) (more : List Token) :
    Keeps (typeSpec doc groupDoc tokens) (typeSpec doc groupDoc (tokens ++ more)) := by
  unfold typeSpec
  rw [identifier_append more terminated.ne_nil]
  refine Keeps.bind (Keeps.refl _) fun name named => ?_
  obtain ⟨kind, head⟩ := identifier_eq_ok.mp named
  obtain ⟨rest, rfl⟩ := List.head?_eq_some_iff.mp head
  have ends := terminated.tail_of_kind (by rw [kind]; decide)
  refine Keeps.bind (skipTypeParameters_keeps ends more) fun parameters readParameters => ?_
  have less := skipTypeParameters_lt ends readParameters
  have mark : nextIs "=" ((rest ++ more).drop parameters) = nextIs "=" (rest.drop parameters) := by
    rw [List.drop_append_of_le_length (Nat.le_of_lt less), nextIs_append more (drop_ne_nil less)]
  simp only [List.cons_append, List.drop_succ_cons, mark]
  refine Keeps.bind ?_ fun _ _ => Keeps.refl _
  exact Keeps.drop (fun _ inside full => typeBody_keeps (ends.suffix inside full) more)
    typeBody_nil _

/-- A declaration of types ends before the semicolon, in parentheses or not. -/
theorem typeDeclaration_lt {docs : Docs} {keyword : Token} {tokens : List Token}
    {found : List TypeDeclaration} {used : Nat} (terminated : Terminated tokens)
    (read : typeDeclaration docs keyword tokens = .ok (found, used)) : used < tokens.length := by
  obtain ⟨opener, rest, group, rfl, opens, readGroup, rfl⟩ | ⟨-, spec, readSpec, -⟩ :=
    typeDeclaration_eq_ok read
  · have ends := terminated.tail_of_is opens (by decide)
    exact Nat.succ_lt_succ (itemsUntil_lt (by decide) ends readGroup)
  · exact typeSpec_lt terminated readSpec

/-- A group of types ends with its parenthesis, so nothing behind it is looked at. -/
theorem typeGroup_keeps {tokens : List Token} (terminated : Terminated tokens) (docs : Docs)
    (groupDoc : String) (more : List Token) :
    Keeps (typeGroup docs groupDoc tokens) (typeGroup docs groupDoc (tokens ++ more)) := by
  refine itemsUntil_keeps terminated fun start _ ends => ?_
  have above : docs.aboveNext (start ++ more) = docs.aboveNext start := by
    cases start with
    | nil => exact absurd rfl ends.ne_nil
    | cons token rest => rfl
  rw [above]
  exact (typeSpec_keeps ends _ _ more).map _

/-- A declaration of types is read the same with more behind. -/
theorem typeDeclaration_keeps {docs : Docs} {keyword : Token} {tokens : List Token}
    (terminated : Terminated tokens) (more : List Token) :
    Keeps (typeDeclaration docs keyword tokens)
      (typeDeclaration docs keyword (tokens ++ more)) := by
  unfold typeDeclaration
  rw [nextIs_append more terminated.ne_nil]
  refine Keeps.ite (fun opened => ?_) fun _ => (typeSpec_keeps terminated _ _ more).map _
  refine Keeps.bind ?_ fun _ _ => Keeps.refl _
  exact Keeps.drop (fun _ inside full => typeGroup_keeps (terminated.suffix inside full) _ _ more)
    (by rw [typeGroup, itemsUntil]) 1

/-! ### Value declarations -/

/-- The initialisers are read alike if they do not come to the end of the tokens. -/
theorem initialisers_append {depth : Int} {current tokens : List Token}
    (complete : (initialisers depth current tokens).2 < tokens.length) (more : List Token) :
    initialisers depth current (tokens ++ more) = initialisers depth current tokens := by
  induction tokens generalizing depth current with
  | nil => exact absurd complete (Nat.not_lt_zero _)
  | cons token rest inductionHypothesis =>
    rw [List.cons_append]
    unfold initialisers at complete ⊢
    split
    · rfl
    · next goesOn =>
      rw [if_neg goesOn] at complete
      split
      · next separates =>
        rw [if_pos separates, List.length_cons] at complete
        simp only [inductionHypothesis (Nat.lt_of_succ_lt_succ complete)]
      · next inner =>
        rw [if_neg inner, List.length_cons] at complete
        simp only [inductionHypothesis (Nat.lt_of_succ_lt_succ complete)]

/-- The tokens from which the initialisers of a value specification are read, if it has any. -/
def initialiserRun (tokens : List Token) : List (List Token) :=
  let named := usedBy ((identifierList tokens).map Prod.snd)
  let typed := usedBy (skipValueType (tokens.drop named))
  if nextIs "=" (tokens.drop (named + typed)) then [tokens.drop (named + typed + 1)] else []

/-- The initialisers that are read from the tokens end before the tokens do. -/
def Complete (run : List Token) : Prop :=
  (initialisers 0 [] run).2 < run.length

instance (run : List Token) : Decidable (Complete run) :=
  inferInstanceAs (Decidable (_ < _))

theorem skipValueType_lt {tokens : List Token} {used : Nat} (terminated : Terminated tokens)
    (read : skipValueType tokens = .ok used) : used < tokens.length := by
  obtain ⟨-, rfl⟩ | ⟨-, type, readType⟩ := skipValueType_eq_ok read
  · exact List.length_pos_iff.mpr terminated.ne_nil
  · exact typeRef_lt terminated readType

theorem skipValueType_keeps {tokens : List Token} (terminated : Terminated tokens)
    (more : List Token) : Keeps (skipValueType tokens) (skipValueType (tokens ++ more)) := by
  unfold skipValueType
  simp only [nextIs_append more terminated.ne_nil]
  exact Keeps.ite (fun _ => Keeps.refl _) fun _ => (typeRef_keeps terminated more).map _

/-- A value ends before the semicolon if its initialisers do. -/
theorem valueSpec_lt {tokens : List Token} {found : ValueSpec} {used : Nat}
    (terminated : Terminated tokens) (complete : ∀ run ∈ initialiserRun tokens, Complete run)
    (read : valueSpec tokens = .ok (found, used)) : used < tokens.length := by
  obtain ⟨names, namesUsed, typeUsed, readNames, readType, branch⟩ := valueSpec_eq_ok read
  have first := identifierList_lt terminated readNames
  have second := skipValueType_lt (terminated.drop first) readType
  rw [List.length_drop] at second
  obtain ⟨mark, rest, behind, isMark, -, rfl⟩ | ⟨-, -, rfl⟩ := branch
  · have start : tokens.drop (namesUsed + typeUsed + 1) = rest := by
      rw [← List.drop_drop, behind, List.drop_one, List.tail_cons]
    have run : initialiserRun tokens = [rest] := by
      simp only [initialiserRun, usedBy_map_snd readNames, usedBy_ok readType, behind, nextIs_cons,
        if_pos isMark, start]
    have less : Complete rest := complete rest (run ▸ List.mem_singleton_self rest)
    rw [Complete, ← start, List.length_drop, start] at less
    omega
  · omega

/-- A value is read the same with more behind if its initialisers were complete. -/
theorem valueSpec_keeps {tokens : List Token} (terminated : Terminated tokens)
    (complete : ∀ run ∈ initialiserRun tokens, Complete run) (more : List Token) :
    Keeps (valueSpec tokens) (valueSpec (tokens ++ more)) := by
  unfold valueSpec
  refine Keeps.bind (identifierList_keeps terminated more) ?_
  rintro ⟨names, namesUsed⟩ readNames
  have first := identifierList_lt terminated readNames
  simp only [List.drop_append_of_le_length (Nat.le_of_lt first)]
  refine Keeps.bind (skipValueType_keeps (terminated.drop first) more) fun typeUsed readType => ?_
  have second := skipValueType_lt (terminated.drop first) readType
  rw [List.length_drop] at second
  have less : namesUsed + typeUsed < tokens.length := by omega
  simp only [List.drop_append_of_le_length (Nat.le_of_lt less),
    List.drop_append_of_le_length (Nat.succ_le_of_lt less), nextIs_append more (drop_ne_nil less)]
  refine Keeps.ite (fun marked => ?_) fun _ => Keeps.refl _
  have run : initialiserRun tokens = [tokens.drop (namesUsed + typeUsed + 1)] := by
    simp only [initialiserRun, usedBy_map_snd readNames, usedBy_ok readType, if_pos marked]
  rw [initialisers_append (complete _ (run ▸ List.mem_singleton_self _))]
  exact Keeps.refl _

/-- The tokens from which initialisers are read behind the keyword of a value declaration. -/
def initialiserRuns (tokens : List Token) : List (List Token) :=
  if nextIs "(" tokens then
    (itemStarts ")" (fun tokens => single (valueSpec tokens)) (tokens.drop 1)).flatMap
      initialiserRun
  else initialiserRun tokens

theorem valueDeclaration_lt {docs : Docs} {keyword : ValueKeyword} {line used : Nat}
    {tokens : List Token} {found : ValueDeclaration} (terminated : Terminated tokens)
    (complete : ∀ run ∈ initialiserRuns tokens, Complete run)
    (read : valueDeclaration docs keyword line tokens = .ok (found, used)) :
    used < tokens.length := by
  obtain ⟨specs, -, branch⟩ := valueDeclaration_eq_ok read
  obtain ⟨opener, rest, group, rfl, opens, readGroup, rfl⟩ | ⟨alone, spec, readSpec, -⟩ := branch
  · have ends := terminated.tail_of_is opens (by decide)
    exact Nat.succ_lt_succ (itemsUntil_lt (by decide) ends readGroup)
  · rw [initialiserRuns, if_neg (ne_true_of_eq_false alone)] at complete
    exact valueSpec_lt terminated complete readSpec

/-- A declaration of values is read the same with more behind if the initialisers of each were
complete. -/
theorem valueDeclaration_keeps {docs : Docs} {keyword : ValueKeyword} {line : Nat}
    {tokens : List Token} (terminated : Terminated tokens)
    (complete : ∀ run ∈ initialiserRuns tokens, Complete run) (more : List Token) :
    Keeps (valueDeclaration docs keyword line tokens)
      (valueDeclaration docs keyword line (tokens ++ more)) := by
  unfold valueDeclaration valueSpecs
  rw [nextIs_append more terminated.ne_nil]
  refine Keeps.bind (Keeps.ite (fun opened => ?_) fun alone => ?_) fun _ _ => Keeps.refl _
  · refine Keeps.bind ?_ fun _ _ => Keeps.refl _
    obtain ⟨opener, rest, rfl, opens⟩ := nextIs_eq_true.mp opened
    rw [initialiserRuns, if_pos opened] at complete
    refine itemsUntil_keeps (terminated.tail_of_is opens (by decide)) fun start member ends => ?_
    refine (valueSpec_keeps ends (fun run inside => ?_) more).map _
    exact complete run (List.mem_flatMap.mpr ⟨start, member, inside⟩)
  · rw [initialiserRuns, if_neg alone] at complete
    exact (valueSpec_keeps terminated complete more).map _

/-! ### Functions -/

theorem skipIfNext_lt {bracket : String} {tokens : List Token} {used : Nat}
    (terminated : Terminated tokens) (read : skipIfNext bracket tokens = .ok used) :
    used < tokens.length := by
  obtain rfl | ⟨skipped, skip⟩ := skipIfNext_eq_ok read
  · exact List.length_pos_iff.mpr terminated.ne_nil
  · exact skipBalanced_lt terminated skip

theorem skipIfNext_keeps {tokens : List Token} (terminated : Terminated tokens) (bracket : String)
    (more : List Token) :
    Keeps (skipIfNext bracket tokens) (skipIfNext bracket (tokens ++ more)) := by
  unfold skipIfNext
  rw [nextIs_append more terminated.ne_nil]
  exact Keeps.ite (fun _ => (skipBalanced_keeps tokens more).map _) fun _ => Keeps.refl _

theorem receiver_lt {tokens : List Token} {found : Option String} {used : Nat}
    (terminated : Terminated tokens) (read : receiver tokens = .ok (found, used)) :
    used < tokens.length := by
  obtain ⟨-, -, rfl⟩ | ⟨skipped, skip, -⟩ := receiver_eq_ok read
  · exact List.length_pos_iff.mpr terminated.ne_nil
  · exact skipBalanced_lt terminated skip

/-- A receiver is in parentheses, which end before the semicolon. -/
theorem receiver_keeps {tokens : List Token} (terminated : Terminated tokens) (more : List Token) :
    Keeps (receiver tokens) (receiver (tokens ++ more)) := by
  unfold receiver
  rw [nextIs_append more terminated.ne_nil]
  refine Keeps.ite (fun _ => ?_) fun _ => Keeps.refl _
  exact Keeps.bind (skipBalanced_keeps tokens more) fun _ _ => Keeps.refl _

theorem skipParameters_lt {tokens : List Token} {used : Nat} (terminated : Terminated tokens)
    (read : skipParameters tokens = .ok used) : used < tokens.length := by
  obtain ⟨skipped, skip⟩ := skipParameters_eq_ok read
  exact skipBalanced_lt terminated skip

theorem skipParameters_keeps {tokens : List Token} (terminated : Terminated tokens)
    (more : List Token) : Keeps (skipParameters tokens) (skipParameters (tokens ++ more)) := by
  unfold skipParameters
  rw [nextIs_append more terminated.ne_nil]
  exact Keeps.ite (fun _ => (skipBalanced_keeps tokens more).map _) fun _ => Keeps.fault _ _

theorem skipResults_lt {tokens : List Token} {used : Nat} (terminated : Terminated tokens)
    (read : skipResults tokens = .ok used) : used < tokens.length := by
  obtain ⟨-, skipped, skip⟩ | ⟨-, -, type, readType⟩ | ⟨-, -, rfl⟩ := skipResults_eq_ok read
  · exact skipBalanced_lt terminated skip
  · exact typeRef_lt terminated readType
  · exact List.length_pos_iff.mpr terminated.ne_nil

/-- The results of a function are a list in parentheses, a type, or nothing where no type starts. -/
theorem skipResults_keeps {tokens : List Token} (terminated : Terminated tokens)
    (more : List Token) : Keeps (skipResults tokens) (skipResults (tokens ++ more)) := by
  unfold skipResults
  rw [nextIs_append more terminated.ne_nil, startsType_append more terminated.ne_nil]
  exact Keeps.ite (fun _ => (skipBalanced_keeps tokens more).map _) fun _ =>
    Keeps.ite (fun _ => (typeRef_keeps terminated more).map _) fun _ => Keeps.refl _

/-- A function ends before the semicolon, with its body or without one. -/
theorem functionDeclaration_lt {docs : Docs} {keyword : Token} {tokens : List Token}
    {found : FunctionDeclaration} {used : Nat} (terminated : Terminated tokens)
    (read : functionDeclaration docs keyword tokens = .ok (found, used)) :
    used < tokens.length := by
  obtain ⟨receiverText, receiverUsed, name, signature, typeParameters, parameters, results, body,
    readReceiver, behind, kind, readTypeParameters, readParameters, readResults, readBody, -,
    rfl⟩ := functionDeclaration_eq_ok read
  have length := congrArg List.length behind
  rw [List.length_drop, List.length_cons] at length
  have ends : Terminated signature := by
    have named := terminated.drop (receiver_lt terminated readReceiver)
    rw [behind] at named
    exact named.tail_of_kind (by rw [kind]; decide)
  have first := skipIfNext_lt ends readTypeParameters
  have second := skipParameters_lt (ends.drop first) readParameters
  rw [List.length_drop] at second
  have less : typeParameters + parameters < signature.length := by omega
  have third := skipResults_lt (ends.drop less) readResults
  rw [List.length_drop] at third
  have last : typeParameters + parameters + results < signature.length := by omega
  have fourth := skipIfNext_lt (ends.drop last) readBody
  rw [List.length_drop] at fourth
  omega

/-- A function is read the same with more behind, also where it has no body. -/
theorem functionDeclaration_keeps {tokens : List Token} (terminated : Terminated tokens)
    (docs : Docs) (keyword : Token) (more : List Token) :
    Keeps (functionDeclaration docs keyword tokens)
      (functionDeclaration docs keyword (tokens ++ more)) := by
  unfold functionDeclaration
  refine Keeps.bind (receiver_keeps terminated more) ?_
  rintro ⟨receiverText, receiverUsed⟩ readReceiver
  have first := receiver_lt terminated readReceiver
  simp only [List.drop_append_of_le_length (Nat.le_of_lt first),
    List.drop_append_of_le_length (Nat.succ_le_of_lt first),
    identifier_append more (drop_ne_nil first)]
  refine Keeps.bind (Keeps.refl _) fun name named => ?_
  have ends : Terminated (tokens.drop (receiverUsed + 1)) := by
    obtain ⟨kind, head⟩ := identifier_eq_ok.mp named
    obtain ⟨signature, behind⟩ := List.head?_eq_some_iff.mp head
    have start := terminated.drop first
    rw [behind] at start
    rw [← List.drop_drop, behind]
    exact start.tail_of_kind (by rw [kind]; decide)
  generalize tokens.drop (receiverUsed + 1) = signature at ends
  refine Keeps.bind (skipIfNext_keeps ends "[" more) fun typeParameters readTypeParameters => ?_
  have second := skipIfNext_lt ends readTypeParameters
  simp only [List.drop_append_of_le_length (Nat.le_of_lt second)]
  refine (skipParameters_keeps (ends.drop second) more).bind fun parameters readParameters => ?_
  have third := skipParameters_lt (ends.drop second) readParameters
  rw [List.length_drop] at third
  have less : typeParameters + parameters < signature.length := by omega
  simp only [List.drop_append_of_le_length (Nat.le_of_lt less)]
  refine Keeps.bind (skipResults_keeps (ends.drop less) more) fun results readResults => ?_
  have fourth := skipResults_lt (ends.drop less) readResults
  rw [List.length_drop] at fourth
  have last : typeParameters + parameters + results < signature.length := by omega
  simp only [List.drop_append_of_le_length (Nat.le_of_lt last)]
  exact Keeps.bind (skipIfNext_keeps (ends.drop last) _ more) fun _ _ => Keeps.refl _

/-! ### Files -/

/-- The tokens from which initialisers are read in the declaration that starts here. -/
def topLevelRuns : List Token → List (List Token)
  | [] => []
  | keyword :: rest =>
    if keyword.text = "const" ∨ keyword.text = "var" then initialiserRuns rest else []

/-- The runs of a declaration are those of its values. -/
theorem initialiserRuns_complete {keyword : Token} {rest : List Token} {valueKeyword : ValueKeyword}
    (text : keyword.text = valueKeyword.text)
    (complete : ∀ run ∈ topLevelRuns (keyword :: rest), Complete run) :
    ∀ run ∈ initialiserRuns rest, Complete run := by
  have either : keyword.text = "const" ∨ keyword.text = "var" := by
    cases valueKeyword with
    | const => exact Or.inl text
    | var => exact Or.inr text
  rw [topLevelRuns, if_pos either] at complete
  exact complete

/-- A line of an import ends with the statement. -/
theorem takeWhile_lt {rest : List Token} (ends : Terminated rest) :
    (rest.takeWhile fun token => !token.is ";").length < rest.length := by
  refine Nat.lt_of_le_of_ne (List.takeWhile_prefix _).length_le fun whole => ?_
  obtain ⟨line, last⟩ := ends
  have passed := List.mem_of_getLast? last
  rw [← (List.takeWhile_prefix _).eq_of_length whole] at passed
  have other := List.all_eq_true.mp List.all_takeWhile _ passed
  simp [Token.is, Token.terminator] at other

theorem pos_of_topLevel {docs : Docs} {keyword : Token} {rest : List Token}
    {found : List Declaration} {used : Nat}
    (read : topLevel docs keyword rest = .ok (found, used)) : 0 < used := by
  cases (topForm_of_topLevel read).2 <;> exact Nat.succ_pos _

/-- A declaration ends before the semicolon behind it. -/
theorem topLevel_lt {docs : Docs} {keyword : Token} {rest : List Token} {found : List Declaration}
    {used : Nat} (terminated : Terminated (keyword :: rest))
    (complete : ∀ run ∈ topLevelRuns (keyword :: rest), Complete run)
    (read : topLevel docs keyword rest = .ok (found, used)) : used < (keyword :: rest).length := by
  obtain ⟨kind, form⟩ := topForm_of_topLevel read
  have ends : Terminated rest := terminated.tail_of_kind (by rw [kind]; decide)
  cases form with
  | @package name tail text named nameKind =>
    subst named
    have others := ends.tail_of_kind (by rw [nameKind]; decide)
    exact Nat.succ_lt_succ (Nat.succ_lt_succ (List.length_pos_iff.mpr others.ne_nil))
  | importGroup text opened skip => exact Nat.succ_lt_succ (skipBalanced_lt ends skip)
  | importLine text unopened => exact Nat.succ_lt_succ (takeWhile_lt ends)
  | type text readType => exact Nat.succ_lt_succ (typeDeclaration_lt ends readType)
  | value valueKeyword text readValue =>
    have runs := initialiserRuns_complete text complete
    exact Nat.succ_lt_succ (valueDeclaration_lt ends runs readValue)
  | function text readFunction => exact Nat.succ_lt_succ (functionDeclaration_lt ends readFunction)

/-- A declaration is read the same with more behind, whatever its keyword. -/
theorem topLevel_keeps {docs : Docs} {keyword : Token} {rest : List Token}
    (terminated : Terminated (keyword :: rest))
    (complete : ∀ run ∈ topLevelRuns (keyword :: rest), Complete run) (more : List Token) :
    Keeps (topLevel docs keyword rest) (topLevel docs keyword (rest ++ more)) := by
  unfold topLevel
  refine Keeps.ite (fun _ => Keeps.fault _ _) fun kind => ?_
  have ends : Terminated rest :=
    terminated.tail_of_kind (by rw [Decidable.not_not.mp kind]; decide)
  have values : ∀ valueKeyword : ValueKeyword, keyword.text = valueKeyword.text →
      Keeps (valueDeclaration docs valueKeyword keyword.line rest)
        (valueDeclaration docs valueKeyword keyword.line (rest ++ more)) := fun _ text =>
    valueDeclaration_keeps ends (initialiserRuns_complete text complete) more
  refine Keeps.ite (fun _ => ?_) fun _ => Keeps.ite (fun _ => ?_) fun _ =>
    Keeps.ite (fun _ => ?_) fun _ => Keeps.ite (fun text => ?_) fun _ =>
    Keeps.ite (fun text => ?_) fun _ => Keeps.ite (fun _ => ?_) fun _ => Keeps.fault _ _
  · rw [identifier_append more ends.ne_nil]
    exact Keeps.refl _
  · rw [nextIs_append more ends.ne_nil]
    refine Keeps.ite (fun _ => ?_) fun _ => ?_
    · exact (skipBalanced_keeps rest more).bind fun _ _ => Keeps.refl _
    · rw [List.takeWhile_append, if_neg (Nat.ne_of_lt (takeWhile_lt ends))]
      exact Keeps.refl _
  · exact (typeDeclaration_keeps ends more).bind fun _ _ => Keeps.refl _
  · exact (values .const text).bind fun _ _ => Keeps.refl _
  · exact (values .var text).bind fun _ _ => Keeps.refl _
  · exact (functionDeclaration_keeps ends docs keyword more).bind fun _ _ => Keeps.refl _

/-- The places at which declarations, package clauses and imports start, each given by the tokens
from there on. -/
def declarationStarts (docs : Docs) (tokens : List Token) : List (List Token) :=
  match tokens with
  | [] => []
  | token :: rest =>
    if token.kind = .semicolon then declarationStarts docs rest
    else (token :: rest) :: declarationStarts docs
      (rest.drop (usedBy ((topLevel docs token rest).map Prod.snd) - 1))
termination_by tokens.length
decreasing_by all_goals (simp only [List.length_drop, List.length_cons]; omega)

/-- The declarations of tokens that end a statement are those they had, and behind them come those
of the further tokens. -/
theorem declarations_append {docs other : Docs} {tokens : List Token} {found : List Declaration}
    (read : declarations docs tokens = .ok found) (agrees : docs.Agrees 0 other tokens)
    (terminated : tokens = [] ∨ Terminated tokens)
    (complete : ∀ run ∈ (declarationStarts docs tokens).flatMap topLevelRuns, Complete run)
    (more : List Token) :
    declarations other (tokens ++ more) = (declarations other more).map (found ++ ·) := by
  rw [declarations_eq_ok] at read
  induction read with
  | ended =>
    rw [List.nil_append]
    cases declarations other more with
    | error fault => rfl
    | ok others => rfl
  | @separator token rest found semicolon others inductionHypothesis =>
    rw [declarationStarts, if_pos semicolon] at complete
    rw [List.cons_append, declarations, if_pos semicolon]
    have ends := terminated.resolve_left (List.cons_ne_nil _ _)
    have restEnds : rest = [] ∨ Terminated rest := by
      by_cases empty : rest = []
      · exact Or.inl empty
      · exact Or.inr (ends.suffix (List.suffix_cons token rest) empty)
    exact inductionHypothesis agrees.tail restEnds complete
  | @topLevel token rest own others used starts readOwn separated behind inductionHypothesis =>
    rw [declarationStarts, if_neg starts, usedBy_map_snd readOwn, List.flatMap_cons] at complete
    rw [List.cons_append, declarations, if_neg starts]
    have ends := terminated.resolve_left (List.cons_ne_nil _ _)
    have runs : ∀ run ∈ topLevelRuns (token :: rest), Complete run :=
      fun run member => complete run (List.mem_append_left _ member)
    have less := topLevel_lt ends runs readOwn
    rw [List.length_cons] at less
    have positive := pos_of_topLevel readOwn
    have left : used - 1 < rest.length := by omega
    have full := drop_ne_nil left
    have inside : rest.drop (used - 1) <:+ token :: rest :=
      (List.drop_suffix _ rest).trans (List.suffix_cons token rest)
    have readOthers := inductionHypothesis (agrees.suffix inside)
      (Or.inr (ends.suffix inside full))
      fun run member => complete run (List.mem_append_right _ member)
    have sameOwn : topLevel other token rest = .ok (own, used) := by
      have moved := topLevel_moved agrees
      rw [Token.moved_zero, Declaration.moved_zero, List.map_id, readOwn, id] at moved
      rw [moved, movedRead, List.map_id_fun, Prod.map_id, id]
    have semicolon : nextIs ";" (rest.drop (used - 1)) :=
      separated.resolve_left fun empty => full (List.isEmpty_iff.mp empty)
    have demanded : expect ";" (rest.drop (used - 1) ++ more) = .ok () := by
      rw [expect_append more full]
      exact expect_eq_ok.mpr semicolon
    rw [topLevel_keeps ends runs more _ sameOwn]
    simp only [bind, Except.bind, List.drop_append_of_le_length (Nat.le_of_lt left), demanded,
      readOthers]
    cases declarations other more with
    | error fault => simp [Except.map]
    | ok found => simp [Except.map, pure, Except.pure]

end GoApiDoc.Go
