/-
This file says how a source is cut into tokens, in two directions. Whatever the source, a token
that is called a keyword or a semicolon is spelled as one; so a token that is spelled like a
bracket is an operator. And a source that is put together piece by piece, from words, numbers,
operators, raw literals, blanks and line breaks, gives the tokens of the pieces one after the
other. A piece is cut off where it ends because of what follows it, so each statement about a
piece says which character may come next.

What holds of every lexeme is shown for each of the branches through which one is cut off, and
what holds of every source by going along its cuts.
-/

import GoApiDoc.Go.Source

namespace GoApiDoc.Go

open Text

/-! ### Branches -/

/-- The branches through which a word, a number or an operator is cut off: its shape, and how many
characters behind the first belong to it. -/
inductive SymbolForm (first : Char) (rest : List Char) : Shape → Nat → Prop
  | word (start : isWordStart first) :
      SymbolForm first rest (wordShape (first :: rest.take (runLength isWord rest)))
        (runLength isWord rest)
  | number {length : Nat} (found : numberLength first rest = some length) :
      SymbolForm first rest (.token .number) length
  | operator {length : Nat} (found : operatorLength first rest = some length) :
      SymbolForm first rest (.token (if first = ';' then .semicolon else .op)) length

theorem symbolForm_of_nextSymbol {first : Char} {rest : List Char} {shape : Shape} {extra : Nat}
    (cut : nextSymbol first rest = .ok (shape, extra)) : SymbolForm first rest shape extra := by
  unfold nextSymbol at cut
  split at cut
  · next start =>
    obtain ⟨rfl, rfl⟩ := Prod.mk.inj (Except.ok.inj cut)
    exact .word start
  split at cut
  · next found =>
    obtain ⟨rfl, rfl⟩ := Prod.mk.inj (Except.ok.inj cut)
    exact .number found
  split at cut
  · next found =>
    obtain ⟨rfl, rfl⟩ := Prod.mk.inj (Except.ok.inj cut)
    exact .operator found
  · nomatch cut

/-- The branches through which a lexeme is cut off. -/
inductive LexemeForm (first : Char) (rest : List Char) : Shape → Nat → Prop
  | newline (breaks : first = '\n') : LexemeForm first rest .newline 0
  | blank (gap : isGap first) : LexemeForm first rest .blank 0
  | lineComment (slash : first = '/') (second : rest.head? = some '/') :
      LexemeForm first rest .lineComment (runLength (· ≠ '\n') rest)
  | blockComment {length : Nat} (slash : first = '/') (second : rest.head? = some '*')
      (closed : blockLength (rest.drop 1) = some length) :
      LexemeForm first rest .blockComment (length + 1)
  | quoted {length : Nat} (mark : first = '"' ∨ first = '\'')
      (closed : quotedLength first rest = some length) :
      LexemeForm first rest (.token (if first = '"' then .string else .rune)) length
  | raw {length : Nat} (mark : first = backquote) (closed : rawLength rest = some length) :
      LexemeForm first rest (.token .string) length
  | symbol {shape : Shape} {extra : Nat} (noBreak : first ≠ '\n') (noGap : ¬ isGap first)
      (noLine : ¬ (first = '/' ∧ rest.head? = some '/'))
      (noBlock : ¬ (first = '/' ∧ rest.head? = some '*'))
      (noQuote : ¬ (first = '"' ∨ first = '\'')) (notRaw : first ≠ backquote)
      (cut : nextSymbol first rest = .ok (shape, extra)) : LexemeForm first rest shape extra

theorem nextLexeme_eq_ok {first : Char} {rest : List Char} {shape : Shape} {extra : Nat} :
    nextLexeme first rest = .ok (shape, extra) ↔ LexemeForm first rest shape extra := by
  constructor
  · intro cut
    unfold nextLexeme at cut
    split at cut
    · next breaks =>
      obtain ⟨rfl, rfl⟩ := Prod.mk.inj (Except.ok.inj cut)
      exact .newline breaks
    next noBreak =>
    split at cut
    · next gap =>
      obtain ⟨rfl, rfl⟩ := Prod.mk.inj (Except.ok.inj cut)
      exact .blank gap
    next noGap =>
    split at cut
    · next line =>
      obtain ⟨rfl, rfl⟩ := Prod.mk.inj (Except.ok.inj cut)
      exact .lineComment line.1 line.2
    next noLine =>
    split at cut
    · next block =>
      split at cut
      · next closed =>
        obtain ⟨rfl, rfl⟩ := Prod.mk.inj (Except.ok.inj cut)
        exact .blockComment block.1 block.2 closed
      · nomatch cut
    next noBlock =>
    split at cut
    · next mark =>
      split at cut
      · next closed =>
        obtain ⟨rfl, rfl⟩ := Prod.mk.inj (Except.ok.inj cut)
        exact .quoted mark closed
      · nomatch cut
    next noQuote =>
    split at cut
    · next mark =>
      split at cut
      · next closed =>
        obtain ⟨rfl, rfl⟩ := Prod.mk.inj (Except.ok.inj cut)
        exact .raw mark closed
      · nomatch cut
    next notRaw => exact .symbol noBreak noGap noLine noBlock noQuote notRaw cut
  · intro form
    unfold nextLexeme
    cases form with
    | newline breaks => rw [if_pos breaks]
    | blank gap =>
      have noBreak : first ≠ '\n' := by
        rintro rfl
        nomatch gap
      rw [if_neg noBreak, if_pos gap]
    | lineComment slash second =>
      subst slash
      rw [if_neg (by decide), if_neg (by decide), if_pos ⟨rfl, second⟩]
    | blockComment slash second closed =>
      subst slash
      rw [if_neg (by decide), if_neg (by decide), if_neg (by simp [second]), if_pos ⟨rfl, second⟩,
        closed]
    | quoted mark closed =>
      rcases mark with rfl | rfl
      · rw [if_neg (by decide), if_neg (by decide), if_neg (by simp), if_neg (by simp),
          if_pos (Or.inl rfl), closed]
      · rw [if_neg (by decide), if_neg (by decide), if_neg (by simp), if_neg (by simp),
          if_pos (Or.inr rfl), closed]
    | raw mark closed =>
      subst mark
      rw [if_neg (by decide), if_neg (by decide), if_neg (fun both => absurd both.1 (by decide)),
        if_neg (fun both => absurd both.1 (by decide)), if_neg (by decide), if_pos rfl, closed]
    | symbol noBreak noGap noLine noBlock noQuote notRaw cut =>
      rw [if_neg noBreak, if_neg noGap, if_neg noLine, if_neg noBlock, if_neg noQuote,
        if_neg notRaw, cut]

/-! ### Spellings -/

/-- Keywords and semicolons are spelled as such. -/
structure Token.Proper (token : Token) : Prop where
  keyword : token.kind = .keyword → token.text ∈ keywords
  semicolon : token.kind = .semicolon → token.text = ";"

theorem Token.proper_of_kind {token : Token} (keyword : token.kind ≠ .keyword)
    (semicolon : token.kind ≠ .semicolon) : token.Proper where
  keyword same := absurd same keyword
  semicolon same := absurd same semicolon

theorem Token.proper_terminator (line : Nat) : (Token.terminator line).Proper where
  keyword same := by simp [Token.terminator] at same
  semicolon _ := rfl

theorem proper_of_wordShape {word : List Char} {kind : TokenKind} (line : Nat)
    (shape : wordShape word = .token kind) :
    Token.Proper ⟨kind, String.ofList word, line⟩ := by
  unfold wordShape at shape
  split at shape
  · next reserved =>
    obtain rfl := Shape.token.inj shape
    exact ⟨fun _ => List.contains_iff_mem.mp reserved, fun other => by simp at other⟩
  · obtain rfl := Shape.token.inj shape
    exact Token.proper_of_kind (by simp) (by simp)

theorem proper_of_nextLexeme {first : Char} {rest : List Char} {kind : TokenKind} {extra : Nat}
    (line : Nat) (cut : nextLexeme first rest = .ok (.token kind, extra)) :
    Token.Proper ⟨kind, String.ofList (first :: rest.take extra), line⟩ := by
  rw [nextLexeme_eq_ok] at cut
  generalize same : Shape.token kind = shape at cut
  cases cut with
  | newline => cases same
  | blank => cases same
  | lineComment => cases same
  | blockComment => cases same
  | quoted =>
    obtain rfl := Shape.token.inj same
    split
    · exact Token.proper_of_kind nofun nofun
    · exact Token.proper_of_kind nofun nofun
  | raw =>
    obtain rfl := Shape.token.inj same
    exact Token.proper_of_kind nofun nofun
  | symbol noBreak noGap noLine noBlock noQuote notRaw cut =>
    cases symbolForm_of_nextSymbol cut with
    | word start => exact proper_of_wordShape line same.symm
    | number found =>
      obtain rfl := Shape.token.inj same
      exact Token.proper_of_kind nofun nofun
    | operator found =>
      obtain rfl := Shape.token.inj same
      split
      · next semicolon =>
        subst semicolon
        obtain rfl : 0 = extra := Option.some.inj found
        exact Token.proper_terminator line
      · exact Token.proper_of_kind nofun nofun

/-! ### Tokens of a layout -/

theorem lexemesFrom_cons {line extra : Nat} {first : Char} {rest : List Char} {shape : Shape}
    (cut : nextLexeme first rest = .ok (shape, extra)) :
    lexemesFrom line (first :: rest) =
      (lexemesFrom (line + Lexeme.lineBreaks ⟨shape, first :: rest.take extra, line⟩)
        (rest.drop extra)).map (⟨shape, first :: rest.take extra, line⟩ :: ·) := by
  rw [lexemesFrom, cut]
  simp only
  split
  · next fault => simp [fault, Except.map]
  · next found => simp [found, Except.map]

/-- A list is reached from its rests, none of which is longer than what is behind its first
element. -/
theorem drop_induction {Element : Type} {motive : List Element → Prop} (nil : motive [])
    (cons : ∀ first rest, (∀ count, motive (rest.drop count)) → motive (first :: rest))
    (list : List Element) : motive list := by
  induction size : list.length using Nat.strongRecOn generalizing list with
  | ind bound inductionHypothesis =>
    cases list with
    | nil => exact nil
    | cons first rest =>
      refine cons first rest fun count => inductionHypothesis _ ?_ _ rfl
      rw [← size, List.length_drop, List.length_cons]
      omega

/-- The source from `line` on is cut into these lexemes: none where it ends, else the one that
comes next and those of the rest behind it. -/
inductive Cuts : Nat → List Char → List Lexeme → Prop
  | ended {line : Nat} : Cuts line [] []
  | lexeme {line extra : Nat} {first : Char} {rest : List Char} {shape : Shape}
      {others : List Lexeme} (next : nextLexeme first rest = .ok (shape, extra))
      (behind : Cuts (line + Lexeme.lineBreaks ⟨shape, first :: rest.take extra, line⟩)
        (rest.drop extra) others) :
      Cuts line (first :: rest) (⟨shape, first :: rest.take extra, line⟩ :: others)

theorem lexemesFrom_eq_ok {line : Nat} {source : List Char} {found : List Lexeme} :
    lexemesFrom line source = .ok found ↔ Cuts line source found := by
  constructor
  · intro cut
    induction source using drop_induction generalizing line found with
    | nil =>
      rw [lexemesFrom] at cut
      obtain rfl := Except.ok.inj cut
      exact .ended
    | cons first rest behind =>
      cases next : nextLexeme first rest with
      | error fault => simp [lexemesFrom, next] at cut
      | ok pair =>
        obtain ⟨shape, extra⟩ := pair
        rw [lexemesFrom_cons next] at cut
        cases others : lexemesFrom
          (line + Lexeme.lineBreaks ⟨shape, first :: rest.take extra, line⟩) (rest.drop extra) with
        | error fault => simp [others, Except.map] at cut
        | ok lexemes =>
          simp only [others, Except.map, Except.ok.injEq] at cut
          subst cut
          exact .lexeme next (behind extra others)
  · intro cuts
    induction cuts with
    | ended => rw [lexemesFrom]
    | lexeme next _ cut =>
      rw [lexemesFrom_cons next, cut]
      rfl

/-- If the lexeme is a token, the property holds of it. -/
def Lexeme.Gives (holds : Token → Prop) (lexeme : Lexeme) : Prop :=
  ∀ kind, lexeme.shape = .token kind → holds ⟨kind, String.ofList lexeme.text, lexeme.line⟩

section

variable {holds : Token → Prop}

theorem gives_of_lexemesFrom {line : Nat} {source : List Char} {found : List Lexeme}
    (each : ∀ first rest kind extra line, nextLexeme first rest = .ok (.token kind, extra) →
      holds ⟨kind, String.ofList (first :: rest.take extra), line⟩)
    (cut : lexemesFrom line source = .ok found) : ∀ lexeme ∈ found, lexeme.Gives holds := by
  rw [lexemesFrom_eq_ok] at cut
  induction cut with
  | ended => exact List.forall_mem_nil _
  | @lexeme line extra first rest shape others next _ tail =>
    refine List.forall_mem_cons.mpr ⟨?_, tail⟩
    rintro kind rfl
    exact each first rest kind extra line next

theorem mem_endingStatement {ends : Bool} {line : Nat} {layout : Layout} {token : Token}
    (member : token ∈ (Layout.endingStatement ends line layout).tokens) :
    token = .terminator line ∨ token ∈ layout.tokens := by
  unfold Layout.endingStatement at member
  split at member
  · exact List.mem_cons.mp member
  · exact Or.inr member

theorem forall_tokens_of_arrange {ends : Bool} {tokenLine line : Nat} {lexemes : List Lexeme}
    (terminator : ∀ line, holds (.terminator line))
    (given : ∀ lexeme ∈ lexemes, lexeme.Gives holds) :
    ∀ token ∈ (Layout.arrange ends tokenLine line lexemes).tokens, holds token := by
  induction lexemes generalizing ends tokenLine line with
  | nil =>
    intro token member
    obtain rfl | member := mem_endingStatement member
    · exact terminator line
    · simp at member
  | cons lexeme rest inductionHypothesis =>
    have tail : ∀ (ends : Bool) (tokenLine line : Nat),
        ∀ token ∈ (Layout.arrange ends tokenLine line rest).tokens, holds token := by
      intro ends tokenLine line
      exact inductionHypothesis fun other member =>
        given other (List.mem_cons_of_mem lexeme member)
    intro token member
    rw [Layout.arrange] at member
    split at member
    · exact tail _ _ _ token member
    · obtain rfl | member := mem_endingStatement member
      · exact terminator _
      · exact tail _ _ _ token member
    · exact tail _ _ _ token member
    · obtain rfl | member := mem_endingStatement member
      · exact terminator _
      · exact tail _ _ _ token member
    · next kind shape =>
      obtain rfl | member := List.mem_cons.mp member
      · exact given lexeme List.mem_cons_self kind shape
      · exact tail _ _ _ token member

theorem layoutOf_eq_ok {source : String} {layout : Layout} :
    layoutOf source = .ok layout ↔
      ∃ found, lexemesFrom 1 source.toList = .ok found ∧
        Layout.arrange false 0 1 found = layout := by
  unfold layoutOf lexemes
  cases lexemesFrom 1 source.toList with
  | error fault => simp
  | ok found => simp [Layout.ofLexemes]

/-- What holds of the semicolons that are put in, and of every token that is cut off, holds of the
tokens of a layout. -/
theorem forall_tokens_of_layoutOf {source : String} {layout : Layout}
    (terminator : ∀ line, holds (.terminator line))
    (each : ∀ first rest kind extra line, nextLexeme first rest = .ok (.token kind, extra) →
      holds ⟨kind, String.ofList (first :: rest.take extra), line⟩)
    (laid : layoutOf source = .ok layout) : ∀ token ∈ layout.tokens, holds token := by
  obtain ⟨found, cut, rfl⟩ := layoutOf_eq_ok.mp laid
  exact forall_tokens_of_arrange terminator (gives_of_lexemesFrom each cut)

end

/-- Every token of a layout is spelled as its kind asks. -/
theorem proper_of_layoutOf {source : String} {layout : Layout}
    (laid : layoutOf source = .ok layout) : ∀ token ∈ layout.tokens, token.Proper :=
  forall_tokens_of_layoutOf Token.proper_terminator
    (fun _ _ _ _ line cut => proper_of_nextLexeme line cut) laid

/-! ### Cutting off a piece -/

theorem runLength_append {inClass : Char → Bool} {body rest : List Char}
    (inside : ∀ char ∈ body, inClass char)
    (apart : ∀ char, rest.head? = some char → inClass char = false) :
    runLength inClass (body ++ rest) = body.length := by
  have none : rest.takeWhile inClass = [] := by
    cases rest with
    | nil => rfl
    | cons char tail => simp [apart char rfl]
  rw [runLength, List.takeWhile_append_of_pos inside, none, List.append_nil]

/-- A character of which a class holds is none of which it does not. -/
theorem ne_of_class {inClass : Char → Bool} {first : Char} (inside : inClass first) (char : Char)
    (outside : inClass char = false) : first ≠ char := by
  rintro rfl
  rw [outside] at inside
  exact Bool.false_ne_true inside

/-- A character that is no line break, gap, slash or quote starts a word, number or operator. -/
theorem nextLexeme_of_class {inClass : Char → Bool} {first : Char} (rest : List Char)
    (inside : inClass first)
    (outside : ['\n', ' ', '\t', '\r', '\x0c', '\uFEFF', '/', '"', '\'', backquote].any inClass =
      false) : nextLexeme first rest = nextSymbol first rest := by
  have other : ∀ char ∈ ['\n', ' ', '\t', '\r', '\x0c', '\uFEFF', '/', '"', '\'', backquote],
      first ≠ char := by
    intro char member
    exact ne_of_class inside char (eq_false_of_ne_true (List.any_eq_false.mp outside char member))
  simp only [List.mem_cons, List.not_mem_nil, or_false, forall_eq_or_imp, forall_eq] at other
  obtain ⟨newline, space, tab, carriage, feed, mark, slash, double, quote, back⟩ := other
  have gap : isGap first = false := by simp [isGap, space, tab, carriage, feed, mark]
  unfold nextLexeme
  rw [if_neg newline, gap, if_neg Bool.false_ne_true, if_neg fun both => slash both.1,
    if_neg fun both => slash both.1, if_neg (not_or.mpr ⟨double, quote⟩), if_neg back]

/-- No word goes on in this text. -/
def Apart (text : List Char) : Prop :=
  ∀ char, text.head? = some char → isWord char = false

/-- A word ends where no word character follows. -/
theorem nextLexeme_word {first : Char} {body rest : List Char} (start : isWordStart first)
    (inside : ∀ char ∈ body, isWord char) (apart : Apart rest) :
    nextLexeme first (body ++ rest) = .ok (wordShape (first :: body), body.length) := by
  rw [nextLexeme_of_class (body ++ rest) start (by decide +kernel), nextSymbol, if_pos start]
  simp only [runLength_append inside apart, List.take_left]

theorem nextLexeme_keyword {word : String} {rest : List Char} (reserved : word ∈ keywords)
    (apart : Apart rest) : ∃ first body, word.toList = first :: body ∧
      nextLexeme first (body ++ rest) = .ok (.token .keyword, body.length) := by
  have words : ∀ word ∈ keywords, word.toList ≠ [] ∧ (word.toList.take 1).all isWordStart ∧
      (word.toList.drop 1).all isWord := by decide +kernel
  obtain ⟨nonempty, start, inside⟩ := words word reserved
  obtain ⟨first, body, spelled⟩ := List.exists_cons_of_ne_nil nonempty
  rw [spelled] at start inside
  have shape : wordShape (first :: body) = .token .keyword := by
    rw [wordShape, ← spelled, String.ofList_toList, if_pos (List.contains_iff_mem.mpr reserved)]
  have cut := nextLexeme_word (by simpa using start) (by simpa using inside) apart
  rw [shape] at cut
  exact ⟨first, body, spelled, cut⟩

theorem isDigit_of_isAsciiDigit {char : Char} (digit : isAsciiDigit char) : isDigit char := by
  have small : char.toNat < 0x80 := by
    simp only [isAsciiDigit, Bool.and_eq_true, decide_eq_true_eq, Char.le_def] at digit
    have le : char.toNat ≤ 57 := digit.2
    omega
  rw [isDigit, if_pos small]
  exact digit

theorem isWordStart_of_isAsciiDigit {char : Char} (digit : isAsciiDigit char) :
    isWordStart char = false := by
  rw [isWordStart, isDigit_of_isAsciiDigit digit, Bool.not_true, Bool.and_false]

theorem decimalLength_append {body rest : List Char} (inside : ∀ char ∈ body, isDecimalPart char)
    (apart : rest.head? = some ']') : decimalLength (body ++ rest) = body.length := by
  obtain ⟨tail, rfl⟩ := List.head?_eq_some_iff.mp apart
  have whole : runLength isDecimalPart (body ++ ']' :: tail) = body.length := by
    refine runLength_append inside ?_
    rintro char head
    obtain rfl := Option.some.inj head
    rfl
  have fraction : fractionLength isDecimalPart (']' :: tail) = 0 := rfl
  simp only [decimalLength, whole, List.drop_left, fraction, Nat.add_zero]
  rfl

/-- A digit that is not followed by the mark of another base starts a decimal number. -/
theorem numberLength_of_isAsciiDigit {first : Char} {rest : List Char} (start : isAsciiDigit first)
    (unmarked : ∀ mark, rest.head? = some mark → mark ∉ ['x', 'X', 'o', 'O', 'b', 'B']) :
    numberLength first rest = some (decimalLength rest) := by
  unfold numberLength
  rw [if_neg (ne_of_class start '.' rfl), start, Bool.not_true, if_neg Bool.false_ne_true]
  split
  · cases rest with
    | nil => rfl
    | cons mark tail =>
      have other := unmarked mark rfl
      simp only [List.mem_cons, List.not_mem_nil, or_false, not_or] at other
      simp [other]
  · rfl

/-- A whole number ends where a bracket closes. -/
theorem nextLexeme_number {first : Char} {body rest : List Char} (start : isAsciiDigit first)
    (inside : ∀ char ∈ body, isDecimalPart char) (apart : rest.head? = some ']') :
    nextLexeme first (body ++ rest) = .ok (.token .number, body.length) := by
  have unmarked : ∀ mark, (body ++ rest).head? = some mark →
      mark ∉ ['x', 'X', 'o', 'O', 'b', 'B'] := by
    intro mark head member
    cases body with
    | nil =>
      obtain rfl := Option.some.inj (apart.symm.trans head)
      exact absurd member (by decide)
    | cons char body =>
      obtain rfl := Option.some.inj head
      have none : ['x', 'X', 'o', 'O', 'b', 'B'].any isDecimalPart = false := by decide
      exact List.any_eq_false.mp none char member (inside char List.mem_cons_self)
  rw [nextLexeme_of_class (body ++ rest) start (by decide +kernel), nextSymbol,
    if_neg (ne_true_of_eq_false (isWordStart_of_isAsciiDigit start)),
    numberLength_of_isAsciiDigit start unmarked, decimalLength_append inside apart]

theorem rawLength_append {body rest : List Char} (free : backquote ∉ body) :
    rawLength (body ++ backquote :: rest) = some (body.length + 1) := by
  induction body with
  | nil => rfl
  | cons char body inductionHypothesis =>
    rw [List.mem_cons, not_or] at free
    rw [List.cons_append, rawLength, if_neg (Ne.symm free.1), inductionHypothesis free.2]
    rfl

/-- A raw literal ends with the first backquote. -/
theorem nextLexeme_raw {body rest : List Char} (free : backquote ∉ body) :
    nextLexeme backquote (body ++ backquote :: rest) = .ok (.token .string, body.length + 1) :=
  nextLexeme_eq_ok.mpr (.raw rfl (rawLength_append free))

theorem nextLexeme_star {rest : List Char} (apart : rest.head? ≠ some '=') :
    nextLexeme '*' rest = .ok (.token .op, 0) := by
  have star : nextLexeme '*' rest =
      .ok (.token .op, if rest.head? == some '=' then 1 else 0) := rfl
  rw [star, if_neg]
  rw [beq_iff_eq]
  exact apart

/-- A point is an operator of its own when a name follows. -/
theorem nextLexeme_point {next : Char} {rest : List Char} (start : isWordStart next) :
    nextLexeme '.' (next :: rest) = .ok (.token .op, 0) := by
  have digit : ¬ isAsciiDigit next := by
    intro digit
    rw [isWordStart_of_isAsciiDigit digit] at start
    exact Bool.false_ne_true start
  have single : ((next :: rest).take 2 == ['.', '.']) = false := by
    rw [beq_eq_false_iff_ne]
    intro points
    rw [List.take_succ_cons, List.cons.injEq] at points
    exact ne_of_class start '.' rfl points.1
  have number : numberLength '.' (next :: rest) = none := by simp [numberLength, digit]
  have operator : operatorLength '.' (next :: rest) =
      some (if (next :: rest).take 2 == ['.', '.'] then 2 else 0) := rfl
  rw [@nextLexeme_of_class (· == '.') '.' (next :: rest) rfl (by decide +kernel), nextSymbol,
    if_neg (by decide), number, operator, single]
  rfl

/-! ### Laying out piece by piece -/

/-- The source from `line` on gives these tokens and no comment; `ends` says whether a line break
at its start would end a statement. -/
def Lays (ends : Bool) (line : Nat) (source : List Char) (tokens : List Token) : Prop :=
  ∃ lexemes, lexemesFrom line source = .ok lexemes ∧
    ∀ tokenLine, Layout.arrange ends tokenLine line lexemes = ⟨tokens, []⟩

/-- The semicolon that a line break puts in, if it ends a statement. -/
def terminators (ends : Bool) (line : Nat) : List Token :=
  if ends then [.terminator line] else []

theorem endingStatement_eq (ends : Bool) (line : Nat) (tokens : List Token) :
    Layout.endingStatement ends line ⟨tokens, []⟩ = ⟨terminators ends line ++ tokens, []⟩ := by
  cases ends with
  | true => rfl
  | false => rfl

namespace Lays

theorem nil (ends : Bool) (line : Nat) : Lays ends line [] (terminators ends line) := by
  refine ⟨[], by rw [lexemesFrom], fun tokenLine => ?_⟩
  rw [Layout.arrange, endingStatement_eq, List.append_nil]

theorem space {ends : Bool} {line : Nat} {rest : List Char} {tokens : List Token}
    (laid : Lays ends line rest tokens) : Lays ends line (' ' :: rest) tokens := by
  obtain ⟨lexemes, cut, arranged⟩ := laid
  have blank : nextLexeme ' ' rest = .ok (.blank, 0) := rfl
  refine ⟨⟨.blank, [' '], line⟩ :: lexemes, ?_, fun tokenLine => arranged tokenLine⟩
  rw [lexemesFrom_cons blank]
  exact congrArg (Except.map _) cut

theorem newline {ends : Bool} {line : Nat} {rest : List Char} {tokens : List Token}
    (laid : Lays false (line + 1) rest tokens) :
    Lays ends line ('\n' :: rest) (terminators ends line ++ tokens) := by
  obtain ⟨lexemes, cut, arranged⟩ := laid
  have next : nextLexeme '\n' rest = .ok (.newline, 0) := rfl
  refine ⟨⟨.newline, ['\n'], line⟩ :: lexemes, ?_, fun tokenLine => ?_⟩
  · rw [lexemesFrom_cons next]
    exact congrArg (Except.map _) cut
  · have step : Layout.arrange ends tokenLine line (⟨.newline, ['\n'], line⟩ :: lexemes) =
        Layout.endingStatement ends line (Layout.arrange false tokenLine (line + 1) lexemes) := rfl
    rw [step, arranged, endingStatement_eq]

/-- A token whose spelling is cut off in front of the rest. -/
theorem token {ends : Bool} {line : Nat} {first : Char} {body rest : List Char} {kind : TokenKind}
    {tokens : List Token}
    (cut : nextLexeme first (body ++ rest) = .ok (.token kind, body.length))
    (laid : Lays (Token.endsStatement ⟨kind, String.ofList (first :: body), line⟩)
      (line + Lexeme.lineBreaks ⟨.token kind, first :: body, line⟩) rest tokens) :
    Lays ends line (first :: (body ++ rest))
      (⟨kind, String.ofList (first :: body), line⟩ :: tokens) := by
  obtain ⟨lexemes, others, arranged⟩ := laid
  refine ⟨⟨.token kind, first :: body, line⟩ :: lexemes, ?_, fun tokenLine => ?_⟩
  · rw [lexemesFrom_cons cut, List.take_left, List.drop_left, others]
    rfl
  · rw [Layout.arrange]
    simp only [arranged, Layout.withToken]

theorem op {ends : Bool} {line : Nat} {char : Char} {rest : List Char} {tokens : List Token}
    (cut : nextLexeme char rest = .ok (.token .op, 0))
    (laid : Lays (Token.endsStatement ⟨.op, String.singleton char, line⟩) line rest tokens) :
    Lays ends line (char :: rest) (⟨.op, String.singleton char, line⟩ :: tokens) := by
  rw [String.singleton_eq_ofList] at laid ⊢
  exact @token ends line char [] rest .op tokens cut laid

end Lays

/-- The layout of a source that gives tokens and no comment. -/
theorem layoutOf_of_lays {source : String} {tokens : List Token}
    (laid : Lays false 1 source.toList tokens) : layoutOf source = .ok ⟨tokens, []⟩ := by
  obtain ⟨lexemes, cut, arranged⟩ := laid
  exact layoutOf_eq_ok.mpr ⟨lexemes, cut, arranged 0⟩

end GoApiDoc.Go
