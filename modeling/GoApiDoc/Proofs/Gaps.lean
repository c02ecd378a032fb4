/-
This file says that laying out a source loses nothing and says where it puts semicolons in. The
source is a gap, a token, a gap and so on up to a last gap. A gap consists of separating characters,
line breaks and whole comments; the comments of the layout are those of the gaps, and its tokens are
those between the gaps, with a semicolon behind each one that can end a statement if a line break
lies in the gap behind it or the source ends there.

The layout is made in one pass that remembers whether a line break would end a statement. Between
two tokens nothing but the gap decides, and the first line break in it is the only one that counts,
so what the pass remembers is stated once as a condition on the rest of the gap.
-/

import GoApiDoc.Proofs.Association
import GoApiDoc.Proofs.Literals

namespace GoApiDoc.Go

open Text

/-! ### The form of a lexeme -/

/-- The form of a lexeme of this shape in front of a text. A line comment ends with its line, a
block comment with the first end mark, and of the tokens only literals can hold a line break. -/
inductive Form (behind : List Char) : Shape → List Char → Prop
  | blank {char : Char} (separates : char ∈ [' ', '\t', '\r', '\x0c', '\uFEFF']) :
      Form behind .blank [char]
  | newline : Form behind .newline ['\n']
  | lineComment {body : List Char} (inLine : '\n' ∉ body)
      (ends : ∀ char, behind.head? = some char → char = '\n') :
      Form behind .lineComment ('/' :: '/' :: body)
  | blockComment {body : List Char} (first : ¬ ['*', '/'] <:+: body) :
      Form behind .blockComment ('/' :: '*' :: (body ++ ['*', '/']))
  | string {body : List Char} (isBody : QuotedBody '"' body) :
      Form behind (.token .string) ('"' :: (body ++ ['"']))
  | rune {body : List Char} (isBody : QuotedBody '\'' body) :
      Form behind (.token .rune) ('\'' :: (body ++ ['\'']))
  | raw {body : List Char} (free : backquote ∉ body) :
      Form behind (.token .string) (backquote :: (body ++ [backquote]))
  | symbol {kind : TokenKind} {first : Char} {rest : List Char}
      (noLiteral : ¬(kind = .string ∨ kind = .rune)) (start : first ≠ '\n') (inLine : '\n' ∉ rest) :
      Form behind (.token kind) (first :: rest)

theorem blockLength_eq_some {text : List Char} {length : Nat}
    (found : blockLength text = some length) :
    ∃ body rest, text = body ++ '*' :: '/' :: rest ∧ length = body.length + 2 ∧
      ¬ ['*', '/'] <:+: body := by
  fun_induction blockLength text generalizing length with
  | case1 rest =>
    obtain rfl := Option.some.inj found
    exact ⟨[], rest, rfl, rfl, by simp⟩
  | case2 char rest unclosed inductionHypothesis =>
    obtain ⟨inner, foundInner, rfl⟩ := Option.map_eq_some_iff.mp found
    obtain ⟨body, tail, rfl, rfl, first⟩ := inductionHypothesis foundInner
    refine ⟨char :: body, tail, rfl, rfl, fun inside => ?_⟩
    obtain start | inside := List.infix_cons_iff.mp inside
    · obtain ⟨others, same⟩ := start
      obtain ⟨rfl, rfl⟩ := List.cons.inj same
      exact unclosed _ rfl rfl
    · exact first inside
  | case3 => cases found

/-- A word, a number or an operator goes over no line break. -/
theorem notMem_of_nextSymbol {first : Char} {rest : List Char} {shape : Shape} {extra : Nat}
    (cut : nextSymbol first rest = .ok (shape, extra)) : '\n' ∉ rest.take extra := by
  intro inside
  obtain ⟨before, after, rfl, free⟩ := List.eq_append_cons_of_mem (List.mem_of_mem_take inside)
  rw [nextSymbol_stop (by decide)] at cut
  rw [List.take_append_of_le_length (nextSymbol_le cut)] at inside
  exact free (List.mem_of_mem_take inside)

theorem shape_of_nextSymbol {first : Char} {rest : List Char} {shape : Shape} {extra : Nat}
    (cut : nextSymbol first rest = .ok (shape, extra)) :
    ∃ kind, shape = .token kind ∧ ¬(kind = .string ∨ kind = .rune) := by
  cases symbolForm_of_nextSymbol cut with
  | word => exact ⟨_, rfl, kind_of_wordShape rfl⟩
  | number => exact ⟨_, rfl, by simp⟩
  | operator =>
    refine ⟨_, rfl, ?_⟩
    split <;> simp

/-- A text is a line and what stands behind it. -/
theorem exists_line (text : List Char) :
    ∃ line behind, text = line ++ behind ∧ '\n' ∉ line ∧
      ∀ char, behind.head? = some char → char = '\n' := by
  by_cases inside : '\n' ∈ text
  · obtain ⟨line, behind, rfl, free⟩ := List.eq_append_cons_of_mem inside
    exact ⟨line, '\n' :: behind, rfl, free, fun char head => (Option.some.inj head).symm⟩
  · exact ⟨text, [], (List.append_nil text).symm, inside, nofun⟩

theorem form_of_lineComment {rest : List Char} (second : rest.head? = some '/') :
    Form (rest.drop (runLength (· ≠ '\n') rest)) .lineComment
      ('/' :: rest.take (runLength (· ≠ '\n') rest)) := by
  obtain ⟨text, rfl⟩ := List.head?_eq_some_iff.mp second
  obtain ⟨line, behind, rfl, free, ends⟩ := exists_line text
  have run : runLength (· ≠ '\n') ('/' :: line ++ behind) = ('/' :: line).length := by
    refine runLength_append ?_ fun char head => by simp [ends char head]
    simp only [List.forall_mem_cons, decide_eq_true_eq]
    exact ⟨by decide, fun char member => ne_of_mem_of_not_mem member free⟩
  rw [← List.cons_append, run, List.take_left, List.drop_left]
  exact .lineComment free ends

theorem form_of_blockComment {rest : List Char} {length : Nat} (second : rest.head? = some '*')
    (closed : blockLength (rest.drop 1) = some length) :
    Form (rest.drop (length + 1)) .blockComment ('/' :: rest.take (length + 1)) := by
  obtain ⟨text, rfl⟩ := List.head?_eq_some_iff.mp second
  obtain ⟨body, behind, same, rfl, first⟩ := blockLength_eq_some closed
  rw [List.drop_one, List.tail_cons] at same
  subst same
  have whole : ('*' :: (body ++ '*' :: '/' :: behind)).take (body.length + 2 + 1) =
      '*' :: (body ++ ['*', '/']) := by
    rw [List.take_succ_cons, List.take_length_add_append]
    rfl
  rw [whole]
  exact .blockComment first

theorem form_of_quoted {first : Char} {rest : List Char} {length : Nat}
    (mark : first = '"' ∨ first = '\'') (closed : quotedLength first rest = some length) :
    Form (rest.drop length) (.token (if first = '"' then .string else .rune))
      (first :: rest.take length) := by
  obtain ⟨body, behind, rfl, rfl, isBody⟩ := quotedLength_eq_some closed
  rw [List.take_length_add_append]
  obtain rfl | rfl := mark
  · exact .string isBody
  · exact .rune isBody

theorem form_of_raw {rest : List Char} {length : Nat} (closed : rawLength rest = some length) :
    Form (rest.drop length) (.token .string) (backquote :: rest.take length) := by
  obtain ⟨body, behind, rfl, rfl, free⟩ := rawLength_eq_some closed
  rw [List.take_length_add_append]
  exact .raw free

/-- The form of the lexeme that is cut off in front of a text. -/
theorem form_of_nextLexeme {first : Char} {rest : List Char} {shape : Shape} {extra : Nat}
    (cut : nextLexeme first rest = .ok (shape, extra)) :
    Form (rest.drop extra) shape (first :: rest.take extra) := by
  cases nextLexeme_eq_ok.mp cut with
  | newline breaks => exact breaks ▸ .newline
  | blank gap =>
    refine .blank ?_
    simpa [isGap, or_assoc] using gap
  | lineComment slash second => exact slash ▸ form_of_lineComment second
  | blockComment slash second closed => exact slash ▸ form_of_blockComment second closed
  | quoted mark closed => exact form_of_quoted mark closed
  | raw mark closed => exact mark ▸ form_of_raw closed
  | symbol noBreak noGap noLine noBlock noQuote notRaw cut =>
    obtain ⟨kind, rfl, noLiteral⟩ := shape_of_nextSymbol cut
    exact .symbol noLiteral noBreak (notMem_of_nextSymbol cut)

/-! ### Gaps and tokens -/

/-- The characters of lexemes, put together again. -/
def textOf (lexemes : List Lexeme) : List Char :=
  lexemes.flatMap Lexeme.text

@[simp] theorem textOf_nil : textOf [] = [] :=
  rfl

@[simp] theorem textOf_cons (lexeme : Lexeme) (rest : List Lexeme) :
    textOf (lexeme :: rest) = lexeme.text ++ textOf rest :=
  rfl

/-- Each lexeme has its form in front of those behind it. -/
def Formed : List Lexeme → Prop
  | [] => True
  | lexeme :: rest => Form (textOf rest) lexeme.shape lexeme.text ∧ Formed rest

/-- Cutting a source into lexemes loses none of it. -/
theorem formed_of_lexemesFrom {line : Nat} {source : List Char} {found : List Lexeme}
    (cut : lexemesFrom line source = .ok found) : textOf found = source ∧ Formed found := by
  rw [lexemesFrom_eq_ok] at cut
  induction cut with
  | ended => exact ⟨rfl, trivial⟩
  | @lexeme line extra first rest shape others next _ tail =>
    obtain ⟨whole, formed⟩ := tail
    refine ⟨?_, ?_, formed⟩
    · rw [textOf_cons, whole, List.cons_append, List.take_append_drop]
    · rw [whole]
      exact form_of_nextLexeme next

/-- The token that a lexeme is, if it is one. -/
def Lexeme.token? (lexeme : Lexeme) : Option Token :=
  match lexeme.shape with
  | .token kind => some ⟨kind, String.ofList lexeme.text, lexeme.line⟩
  | _ => none

/-- The comment that a lexeme is, if it is one; `tokenLine` is the line on which the last token
ends. -/
def Lexeme.comment? (tokenLine : Nat) (lexeme : Lexeme) : Option Comment :=
  match lexeme.shape with
  | .lineComment | .blockComment =>
    some ⟨lexeme.text, lexeme.line, lexeme.line + lexeme.lineBreaks, tokenLine != lexeme.line⟩
  | _ => none

/-- A gap: separating characters, line breaks and whole comments. A line comment ends at a line
break, or else where the gap ends, at the end of the source. -/
inductive IsGap (atEnd : Prop) : List Lexeme → Prop
  | nil : IsGap atEnd []
  | blank {char : Char} {line : Nat} {rest : List Lexeme}
      (separates : char ∈ [' ', '\t', '\r', '\x0c', '\uFEFF']) (isGap : IsGap atEnd rest) :
      IsGap atEnd (⟨.blank, [char], line⟩ :: rest)
  | newline {line : Nat} {rest : List Lexeme} (isGap : IsGap atEnd rest) :
      IsGap atEnd (⟨.newline, ['\n'], line⟩ :: rest)
  | lineComment {body : List Char} {line : Nat} {rest : List Lexeme} (inLine : '\n' ∉ body)
      (ends : (textOf rest).head? = some '\n' ∨ rest = [] ∧ atEnd) (isGap : IsGap atEnd rest) :
      IsGap atEnd (⟨.lineComment, '/' :: '/' :: body, line⟩ :: rest)
  | blockComment {body : List Char} {line : Nat} {rest : List Lexeme}
      (first : ¬ ['*', '/'] <:+: body) (isGap : IsGap atEnd rest) :
      IsGap atEnd (⟨.blockComment, '/' :: '*' :: (body ++ ['*', '/']), line⟩ :: rest)

/-- A token and the gap behind it. -/
structure Segment where
  token : Token
  gap : List Lexeme
  deriving DecidableEq, Repr

/-- The line on which a token ends, as lines are counted: those of a literal in backquotes. -/
def Token.lastLine (token : Token) : Nat :=
  if token.kind = .string ∧ token.text.toList.head? = some backquote then
    token.line + token.text.toList.count '\n'
  else token.line

namespace Segment

/-- The characters of the token and of the gap. -/
def text (segment : Segment) : List Char :=
  segment.token.text.toList ++ textOf segment.gap

/-- The comments in the gap. -/
def comments (segment : Segment) : List Comment :=
  segment.gap.filterMap (Lexeme.comment? segment.token.lastLine)

end Segment

/-- What is behind each token is a gap; only the last one reaches the end of the source. -/
def Gapped : List Segment → Prop
  | [] => True
  | segment :: rest => IsGap (rest = []) segment.gap ∧ Gapped rest

/-- A token that can end a statement: a name, a literal, one of four words or one of five
operators. -/
def Token.MayEnd (token : Token) : Prop :=
  token.kind ∈ [.ident, .number, .string, .rune] ∨
    token.kind = .keyword ∧ token.text ∈ ["break", "continue", "fallthrough", "return"] ∨
    token.kind = .op ∧ token.text ∈ [")", "]", "\x7d", "++", "--"]
  deriving Decidable

/-- The tokens with the semicolons that are put in: behind a token that can end a statement, if a
line break lies in its gap or no token follows. -/
def withSemicolons : List Segment → List Token
  | [] => []
  | segment :: rest =>
    segment.token ::
      (terminators (segment.token.MayEnd ∧ ('\n' ∈ textOf segment.gap ∨ rest = []))
        segment.token.lastLine ++ withSemicolons rest)

/-- The lexemes in front of the first token. -/
def gapOf (lexemes : List Lexeme) : List Lexeme :=
  lexemes.takeWhile (·.token?.isNone)

/-- The tokens among the lexemes, each with the gap behind it. -/
def segmentsOf : List Lexeme → List Segment
  | [] => []
  | lexeme :: rest =>
    match lexeme.token? with
    | some token => ⟨token, gapOf rest⟩ :: segmentsOf rest
    | none => segmentsOf rest

theorem mayEnd_iff {token : Token} : token.MayEnd ↔ token.endsStatement = true := by
  obtain ⟨kind, text, line⟩ := token
  unfold Token.MayEnd Token.endsStatement
  cases kind <;> simp

section

variable {text : List Char} {line : Nat} {rest : List Lexeme}

theorem lastLine_token (kind : TokenKind) :
    Token.lastLine ⟨kind, String.ofList text, line⟩ =
      line + Lexeme.lineBreaks ⟨.token kind, text, line⟩ := by
  cases kind with
  | string =>
    simp only [Token.lastLine, Lexeme.lineBreaks, String.toList_ofList, true_and]
    split
    · rfl
    · rfl
  | _ => rfl

theorem gapOf_token (kind : TokenKind) : gapOf (⟨.token kind, text, line⟩ :: rest) = [] :=
  rfl

theorem segmentsOf_token (kind : TokenKind) :
    segmentsOf (⟨.token kind, text, line⟩ :: rest) =
      ⟨⟨kind, String.ofList text, line⟩, gapOf rest⟩ :: segmentsOf rest :=
  rfl

end

theorem gapOf_cons {lexeme : Lexeme} (apart : lexeme.token? = none) (rest : List Lexeme) :
    gapOf (lexeme :: rest) = lexeme :: gapOf rest :=
  List.takeWhile_cons_of_pos (Option.isNone_iff_eq_none.mpr apart)

theorem segmentsOf_cons {lexeme : Lexeme} (apart : lexeme.token? = none) (rest : List Lexeme) :
    segmentsOf (lexeme :: rest) = segmentsOf rest := by
  rw [segmentsOf, apart]

/-- Gaps and tokens by turns are the whole. -/
theorem textOf_eq_segments (lexemes : List Lexeme) :
    textOf lexemes =
      textOf (gapOf lexemes) ++ (segmentsOf lexemes).flatMap Segment.text := by
  induction lexemes with
  | nil => rfl
  | cons lexeme rest inductionHypothesis =>
    obtain ⟨shape, text, line⟩ := lexeme
    cases shape with
    | token kind =>
      rw [gapOf_token, segmentsOf_token, List.flatMap_cons, Segment.text, String.toList_ofList,
        List.append_assoc, ← inductionHypothesis]
      rfl
    | _ => exact (congrArg (text ++ ·) inductionHypothesis).trans (List.append_assoc ..).symm

/-- What follows a line comment up to the next token starts with a line break, or it is empty and
no token follows. -/
theorem gapOf_ends {rest : List Lexeme} (formed : Formed rest)
    (ends : ∀ char, (textOf rest).head? = some char → char = '\n') :
    (textOf (gapOf rest)).head? = some '\n' ∨ gapOf rest = [] ∧ segmentsOf rest = [] := by
  match rest with
  | [] => exact Or.inr ⟨rfl, rfl⟩
  | ⟨shape, text, line⟩ :: others =>
    obtain ⟨form, -⟩ := formed
    cases form with
    | symbol _ start => exact absurd (ends _ rfl) start
    | string | rune | raw => exact absurd (ends _ rfl) (by decide)
    | newline => exact Or.inl rfl
    | blank => exact Or.inl (congrArg some (ends _ rfl))
    | lineComment => exact Or.inl (congrArg some (ends _ rfl))
    | blockComment => exact Or.inl (congrArg some (ends _ rfl))

theorem gapped_of_formed {lexemes : List Lexeme} (formed : Formed lexemes) :
    IsGap (segmentsOf lexemes = []) (gapOf lexemes) ∧ Gapped (segmentsOf lexemes) := by
  induction lexemes with
  | nil => exact ⟨.nil, trivial⟩
  | cons lexeme rest inductionHypothesis =>
    obtain ⟨shape, text, line⟩ := lexeme
    obtain ⟨form, formed⟩ := formed
    obtain ⟨isGap, gapped⟩ := inductionHypothesis formed
    cases form with
    | string | rune | raw | symbol => exact ⟨.nil, isGap, gapped⟩
    | newline => exact ⟨.newline isGap, gapped⟩
    | blank separates => exact ⟨.blank separates isGap, gapped⟩
    | lineComment inLine ends => exact ⟨.lineComment inLine (gapOf_ends formed ends) isGap, gapped⟩
    | blockComment first => exact ⟨.blockComment first isGap, gapped⟩

/-! ### The layout of gaps and tokens -/

theorem comments_arrange (ends : Bool) (tokenLine line : Nat) (lexemes : List Lexeme) :
    (Layout.arrange ends tokenLine line lexemes).comments =
      (gapOf lexemes).filterMap (Lexeme.comment? tokenLine) ++
        (segmentsOf lexemes).flatMap Segment.comments := by
  induction lexemes generalizing ends tokenLine line with
  | nil => rw [Layout.arrange, Layout.endingStatement_terminators]; rfl
  | cons lexeme rest inductionHypothesis =>
    obtain ⟨shape, text, start⟩ := lexeme
    rw [Layout.arrange]
    cases shape with
    | blank => exact inductionHypothesis _ _ _
    | newline =>
      rw [gapOf_cons rfl, segmentsOf_cons rfl]
      simp only [Layout.endingStatement_terminators, inductionHypothesis]
      rfl
    | lineComment => exact congrArg (_ :: ·) (inductionHypothesis _ _ _)
    | blockComment =>
      rw [gapOf_cons rfl, segmentsOf_cons rfl]
      simp only [Layout.withComment, Layout.endingStatement_terminators, inductionHypothesis]
      rfl
    | token kind =>
      rw [gapOf_token, segmentsOf_token]
      simp only [Layout.withToken, inductionHypothesis, List.flatMap_cons, Segment.comments,
        lastLine_token]
      rfl

/-- What the pass remembers up to the next token is whether the first line break or the end of the
source before it puts a semicolon in. -/
theorem tokens_arrange (ends : Bool) (tokenLine : Nat) {line : Nat} {lexemes : List Lexeme}
    (follow : Follow line lexemes) (formed : Formed lexemes) :
    (Layout.arrange ends tokenLine line lexemes).tokens =
      terminators (ends ∧ ('\n' ∈ textOf (gapOf lexemes) ∨ segmentsOf lexemes = [])) line ++
        withSemicolons (segmentsOf lexemes) := by
  induction lexemes generalizing ends tokenLine line with
  | nil =>
    rw [Layout.arrange, Layout.endingStatement_terminators]
    simp [gapOf, segmentsOf, withSemicolons]
  | cons lexeme rest inductionHypothesis =>
    obtain ⟨shape, text, start⟩ := lexeme
    obtain ⟨rfl, follow⟩ := follow
    obtain ⟨form, formed⟩ := formed
    have tail := fun ends tokenLine => inductionHypothesis ends tokenLine follow formed
    rw [Layout.arrange]
    cases form with
    | newline =>
      -- The line break ends the statement, so none that follows does.
      rw [gapOf_cons rfl, segmentsOf_cons rfl, textOf_cons]
      simp [tail, Layout.endingStatement_terminators, terminators]
    | blank separates =>
      have apart := ne_of_mem_of_not_mem separates (show '\n' ∉ _ by decide)
      rw [gapOf_cons rfl, segmentsOf_cons rfl, textOf_cons]
      simp only [tail]
      simp [apart.symm, Lexeme.lineBreaks]
    | lineComment inLine =>
      rw [gapOf_cons rfl, segmentsOf_cons rfl, textOf_cons]
      simp only [Layout.withComment, tail]
      simp [inLine, Lexeme.lineBreaks]
    | @blockComment body =>
      rw [gapOf_cons rfl, segmentsOf_cons rfl, textOf_cons]
      simp only [Layout.withComment, tail, Layout.endingStatement_terminators]
      -- A comment with a line break in it ends the statement like the line break.
      by_cases inside : '\n' ∈ '/' :: '*' :: (body ++ ['*', '/'])
      · have breaks := Nat.ne_of_gt (List.count_pos_iff.mpr inside)
        simp only [Lexeme.lineBreaks, List.mem_append, inside, bne_iff_ne.mpr breaks]
        simp [terminators]
      · simp only [Lexeme.lineBreaks, List.mem_append, inside, List.count_eq_zero.mpr inside]
        simp [terminators]
    | string | rune | raw | symbol =>
      rw [gapOf_token, segmentsOf_token]
      simp only [Layout.withToken, tail, withSemicolons, lastLine_token, mayEnd_iff]
      simp [terminators]

/-- An accepted source is cut into lexemes, and its layout is that of their gaps and tokens. -/
theorem exists_lexemes_of_layoutOf {source : String} {layout : Layout}
    (laid : layoutOf source = .ok layout) :
    ∃ found, lexemes source.toList = .ok found ∧ textOf found = source.toList ∧
      Formed found ∧ Follow 1 found ∧
      layout.comments = (gapOf found).filterMap (Lexeme.comment? 0) ++
        (segmentsOf found).flatMap Segment.comments ∧
      layout.tokens = withSemicolons (segmentsOf found) := by
  obtain ⟨found, cut, rfl⟩ := layoutOf_eq_ok.mp laid
  obtain ⟨whole, formed⟩ := formed_of_lexemesFrom cut
  have follow := follow_of_lexemesFrom cut
  refine ⟨found, cut, whole, formed, follow, comments_arrange .., ?_⟩
  rw [tokens_arrange _ _ follow formed]
  simp [terminators]

/-- A source is laid out without loss: it is gaps and tokens by turns, the comments are those of the
gaps, and the tokens are those between the gaps, with a semicolon behind each one that can end a
statement if a line break lies in the gap behind it or no token follows. -/
theorem layoutOf_gaps {source : String} {layout : Layout} (laid : layoutOf source = .ok layout) :
    ∃ lead segments, source.toList = textOf lead ++ segments.flatMap Segment.text ∧
      IsGap (segments = []) lead ∧ Gapped segments ∧
      layout.comments =
        lead.filterMap (Lexeme.comment? 0) ++ segments.flatMap Segment.comments ∧
      layout.tokens = withSemicolons segments := by
  obtain ⟨found, -, whole, formed, -, comments, tokens⟩ := exists_lexemes_of_layoutOf laid
  obtain ⟨isGap, gapped⟩ := gapped_of_formed formed
  exact ⟨gapOf found, segmentsOf found, whole ▸ textOf_eq_segments found, isGap, gapped, comments,
    tokens⟩

/-- A name is ended by the line break in a comment, and a literal in backquotes that holds a line
break is ended by the end of the source behind a comment. -/
theorem layoutOf_gaps_hidden_breaks :
    let source := "a /*\n*/ = " ++ String.ofList [backquote, '\n', backquote] ++ " // c"
    let layout : Layout :=
      ⟨[⟨.ident, "a", 1⟩, .terminator 1, ⟨.op, "=", 2⟩,
          ⟨.string, String.ofList [backquote, '\n', backquote], 2⟩, .terminator 3],
        [⟨"/*\n*/".toList, 1, 2, false⟩, ⟨"// c".toList, 3, 3, false⟩]⟩
    layoutOf source = .ok layout ∧
      ∃ lead segments, source.toList = textOf lead ++ segments.flatMap Segment.text ∧
        IsGap (segments = []) lead ∧ Gapped segments ∧
        layout.comments =
          lead.filterMap (Lexeme.comment? 0) ++ segments.flatMap Segment.comments ∧
        layout.tokens = withSemicolons segments := by
  intro source layout
  have laid : layoutOf source = .ok layout := eq_ok_of_toOption (by decide +kernel)
  exact ⟨laid, layoutOf_gaps laid⟩

end GoApiDoc.Go
