/-
This file says by how much line numbers are off. The line of a token or a comment is the number of
line breaks in front of it and one more, as long as every line break is counted. The count goes on
at line breaks, in block comments and in literals in backquotes. It passes over what a literal in
quotes holds, and such a literal can hold a line break: a backslash takes the next character along,
whatever it is. Each of these makes the lines of all that follows too small by one.
-/

import GoApiDoc.Proofs.Gaps

namespace GoApiDoc.Go

/-! ### Line breaks that are not counted -/

/-- A string or a rune that is not enclosed in backquotes. -/
def Token.Interpreted (token : Token) : Prop :=
  token.kind = .rune ∨ token.kind = .string ∧ token.text.toList.head? ≠ some backquote
  deriving Decidable

/-- The line breaks in a lexeme that the line count passes over. -/
def Lexeme.hiddenBreaks (lexeme : Lexeme) : Nat :=
  match lexeme.token? with
  | some token => if token.Interpreted then lexeme.text.count '\n' else 0
  | none => 0

/-- The line breaks in lexemes that the line count passes over. -/
def hiddenBreaks : List Lexeme → Nat
  | [] => 0
  | lexeme :: rest => lexeme.hiddenBreaks + hiddenBreaks rest

/-- In quotes only a backslash takes a line break along. -/
theorem QuotedBody.hidden {quote : Char} {body : List Char} (isBody : QuotedBody quote body)
    (inside : '\n' ∈ body) : ['\\', '\n'] <:+: body := by
  induction isBody with
  | nil => nomatch inside
  | plain _ inLine _ _ inductionHypothesis =>
    obtain same | inside := List.mem_cons.mp inside
    · exact absurd same.symm inLine
    · exact List.infix_cons (inductionHypothesis inside)
  | escaped _ inductionHypothesis =>
    obtain same | inside := List.mem_cons.mp inside
    · nomatch same
    obtain rfl | inside := List.mem_cons.mp inside
    · exact ⟨[], _, rfl⟩
    · exact List.infix_cons (List.infix_cons (inductionHypothesis inside))

theorem QuotedBody.hidden_enclosed {quote : Char} {body : List Char}
    (isBody : QuotedBody quote body) (inLine : quote ≠ '\n')
    (inside : '\n' ∈ quote :: (body ++ [quote])) :
    ['\\', '\n'] <:+: quote :: (body ++ [quote]) := by
  have inBody : '\n' ∈ body := by simpa [inLine.symm] using inside
  exact List.infix_cons ((isBody.hidden inBody).trans (List.prefix_append ..).isInfix)

section

variable {behind : List Char} {lexeme : Lexeme}

/-- The line breaks of a lexeme are counted or passed over. -/
theorem count_of_form (form : Form behind lexeme.shape lexeme.text) :
    lexeme.text.count '\n' = lexeme.lineBreaks + lexeme.hiddenBreaks := by
  obtain ⟨shape, text, line⟩ := lexeme
  cases form with
  | blank separates =>
    have apart := ne_of_mem_of_not_mem separates (show '\n' ∉ _ by decide)
    exact List.count_eq_zero.mpr (List.mem_singleton.not.mpr apart.symm)
  | newline => rfl
  | lineComment inLine => exact List.count_eq_zero.mpr (by simp [inLine])
  | blockComment => rfl
  | string =>
    have quoted : '"' ≠ backquote := by decide
    simp [Lexeme.lineBreaks, Lexeme.hiddenBreaks, Lexeme.token?, Token.Interpreted, quoted]
  | rune | raw => simp [Lexeme.lineBreaks, Lexeme.hiddenBreaks, Lexeme.token?, Token.Interpreted]
  | @symbol kind first rest noLiteral start inLine =>
    have free : '\n' ∉ first :: rest := by simp [start.symm, inLine]
    simp only [Lexeme.hiddenBreaks, Lexeme.token?, List.count_eq_zero.mpr free]
    cases kind <;> simp_all [Lexeme.lineBreaks]

theorem hidden_of_form {token : Token} (form : Form behind lexeme.shape lexeme.text)
    (isToken : lexeme.token? = some token) (interpreted : token.Interpreted)
    (inside : '\n' ∈ token.text.toList) : ['\\', '\n'] <:+: token.text.toList := by
  obtain ⟨shape, text, line⟩ := lexeme
  cases form with
  | blank | newline | lineComment | blockComment => nomatch isToken
  | string isBody | rune isBody =>
    obtain rfl := Option.some.inj isToken
    rw [String.toList_ofList] at inside ⊢
    exact isBody.hidden_enclosed (by decide) inside
  | raw =>
    obtain rfl := Option.some.inj isToken
    simp [Token.Interpreted] at interpreted
  | symbol noLiteral =>
    obtain rfl := Option.some.inj isToken
    exact absurd (interpreted.symm.imp_left And.left) noLiteral

end

/-- A string or a rune that goes over a line break has a backslash in front of one. -/
theorem hidden_of_layoutOf {source : String} {layout : Layout}
    (laid : layoutOf source = .ok layout) :
    ∀ token ∈ layout.tokens, token.Interpreted → '\n' ∈ token.text.toList →
      ['\\', '\n'] <:+: token.text.toList := by
  refine forall_tokens_of_layoutOf (fun line => ?_) (fun first rest kind extra line cut => ?_) laid
  · simp [Token.Interpreted, Token.terminator]
  · let lexeme : Lexeme := ⟨.token kind, first :: rest.take extra, line⟩
    have form : Form (rest.drop extra) lexeme.shape lexeme.text := form_of_nextLexeme cut
    exact hidden_of_form form rfl

/-! ### Lines in front -/

/-- The line on which the character stands that follows this text at the start of a source. -/
def lineAfter (text : List Char) : Nat :=
  1 + text.count '\n'

/-- The lines of tokens and comments are too small by what was missed in front of them. -/
structure LinesShort (missed : List Lexeme → Nat) (found : List Lexeme) : Prop where
  token {before behind : List Lexeme} {lexeme : Lexeme} {token : Token}
    (place : found = before ++ lexeme :: behind) (isToken : lexeme.token? = some token) :
    token.line + missed before = lineAfter (textOf before)
  comment {before behind : List Lexeme} {lexeme : Lexeme} {tokenLine : Nat} {comment : Comment}
    (place : found = before ++ lexeme :: behind)
    (isComment : lexeme.comment? tokenLine = some comment) :
    comment.first + missed before = lineAfter (textOf before) ∧
      comment.last + missed before = lineAfter (textOf before ++ lexeme.text.dropLast)

theorem LinesShort.congr {first second : List Lexeme → Nat} {found : List Lexeme}
    (short : LinesShort first found)
    (same : ∀ before behind, found = before ++ behind → first before = second before) :
    LinesShort second found where
  token place isToken := same _ _ place ▸ short.token place isToken
  comment place isComment := same _ _ place ▸ short.comment place isComment

theorem form_of_mem {found : List Lexeme} (formed : Formed found) :
    ∀ lexeme ∈ found, ∃ behind, Form behind lexeme.shape lexeme.text := by
  induction found with
  | nil => nofun
  | cons first rest inductionHypothesis =>
    obtain ⟨form, formed⟩ := formed
    exact List.forall_mem_cons.mpr ⟨⟨_, form⟩, inductionHypothesis formed⟩

theorem count_textOf {lexemes : List Lexeme}
    (forms : ∀ lexeme ∈ lexemes, ∃ behind, Form behind lexeme.shape lexeme.text) :
    (textOf lexemes).count '\n' = lineBreaks lexemes + hiddenBreaks lexemes := by
  induction lexemes with
  | nil => rfl
  | cons lexeme rest inductionHypothesis =>
    obtain ⟨⟨behind, form⟩, forms⟩ := List.forall_mem_cons.mp forms
    have count := count_of_form form
    have tail := inductionHypothesis forms
    rw [textOf_cons, List.count_append, lineBreaks_cons, hiddenBreaks]
    omega

theorem eq_of_token? {lexeme : Lexeme} {token : Token} (isToken : lexeme.token? = some token) :
    token.text.toList = lexeme.text ∧ token.line = lexeme.line := by
  unfold Lexeme.token? at isToken
  split at isToken
  · obtain rfl := Option.some.inj isToken
    exact ⟨String.toList_ofList, rfl⟩
  · nomatch isToken

theorem Lexeme.hiddenBreaks_eq_zero {lexeme : Lexeme}
    (free : ∀ token, lexeme.token? = some token → token.Interpreted → '\n' ∉ token.text.toList) :
    lexeme.hiddenBreaks = 0 := by
  unfold Lexeme.hiddenBreaks
  split
  · next token isToken =>
    split
    · next interpreted =>
      rw [← (eq_of_token? isToken).1]
      exact List.count_eq_zero.mpr (free token isToken interpreted)
    · rfl
  · rfl

/-- Where no string or rune goes over a line break every line break is counted. -/
theorem hiddenBreaks_eq_zero {lexemes : List Lexeme}
    (free : ∀ lexeme ∈ lexemes, ∀ token, lexeme.token? = some token → token.Interpreted →
      '\n' ∉ token.text.toList) : hiddenBreaks lexemes = 0 := by
  induction lexemes with
  | nil => rfl
  | cons lexeme rest inductionHypothesis =>
    obtain ⟨first, others⟩ := List.forall_mem_cons.mp free
    rw [hiddenBreaks, Lexeme.hiddenBreaks_eq_zero first, inductionHypothesis others]

section

variable {found before behind : List Lexeme} {lexeme : Lexeme}

theorem line_of_follow (follow : Follow 1 found) (formed : Formed found)
    (place : found = before ++ lexeme :: behind) :
    lexeme.line + hiddenBreaks before = lineAfter (textOf before) := by
  have forms := form_of_mem formed
  subst place
  have line := (follow_append.mp follow).2.1
  have count := count_textOf fun other member => forms other (List.mem_append_left _ member)
  rw [line, lineAfter, count, Nat.add_assoc]

/-- A comment ends behind its last line break. -/
theorem lines_of_comment? {tokenLine : Nat} {comment : Comment}
    (form : ∃ rest, Form rest lexeme.shape lexeme.text)
    (isComment : lexeme.comment? tokenLine = some comment) :
    comment.first = lexeme.line ∧
      comment.last = lexeme.line + lexeme.text.dropLast.count '\n' := by
  obtain ⟨shape, text, line⟩ := lexeme
  obtain ⟨rest, form⟩ := form
  cases form with
  | blank | newline | string | rune | raw | symbol => nomatch isComment
  | @lineComment body inLine =>
    obtain rfl := Option.some.inj isComment
    have free : '\n' ∉ ('/' :: '/' :: body).dropLast := fun inside =>
      absurd (List.dropLast_subset _ inside) (by simp [inLine])
    exact ⟨rfl, by rw [List.count_eq_zero.mpr free]; rfl⟩
  | @blockComment body =>
    obtain rfl := Option.some.inj isComment
    have ends : '/' :: '*' :: (body ++ ['*', '/']) = '/' :: '*' :: (body ++ ['*']) ++ ['/'] := by
      simp
    refine ⟨rfl, ?_⟩
    simp only [Lexeme.lineBreaks, ends, List.dropLast_concat, List.count_append]
    rfl

end

/-- Every line is too small by the line breaks in front that literals in quotes hold. -/
theorem linesShort_hiddenBreaks {found : List Lexeme} (follow : Follow 1 found)
    (formed : Formed found) : LinesShort hiddenBreaks found where
  token {before behind lexeme token} place isToken := by
    have line := line_of_follow follow formed place
    rw [(eq_of_token? isToken).2, line]
  comment {before behind lexeme tokenLine comment} place isComment := by
    have line := line_of_follow follow formed place
    have member : lexeme ∈ found := place ▸ List.mem_append_right _ List.mem_cons_self
    obtain ⟨first, last⟩ := lines_of_comment? (form_of_mem formed _ member) isComment
    rw [lineAfter] at line
    rw [first, last, lineAfter, lineAfter, List.count_append]
    omega

theorem mem_withSemicolons {found : List Lexeme} {lexeme : Lexeme} {token : Token}
    (member : lexeme ∈ found) (isToken : lexeme.token? = some token) :
    token ∈ withSemicolons (segmentsOf found) := by
  induction found with
  | nil => nomatch member
  | cons first rest inductionHypothesis =>
    rw [segmentsOf]
    obtain rfl | member := List.mem_cons.mp member
    · simp only [isToken]
      exact List.mem_cons_self
    · have inRest := inductionHypothesis member
      split
      · exact List.mem_cons_of_mem _ (List.mem_append_right _ inRest)
      · exact inRest

/-- The lines are true and no string or rune goes over a line break just when no string or rune has
a backslash in front of one. In any case each line is too small by the line breaks in front that
strings and runes hold. -/
theorem layoutOf_lines {source : String} {layout : Layout} (laid : layoutOf source = .ok layout) :
    ∃ found, lexemes source.toList = .ok found ∧ textOf found = source.toList ∧
      layout.comments = (gapOf found).filterMap (Lexeme.comment? 0) ++
        (segmentsOf found).flatMap Segment.comments ∧
      layout.tokens = withSemicolons (segmentsOf found) ∧
      LinesShort hiddenBreaks found ∧
      ((LinesShort (fun _ => 0) found ∧
          ∀ token ∈ layout.tokens, token.Interpreted → '\n' ∉ token.text.toList) ↔
        ∀ token ∈ layout.tokens, token.Interpreted → ¬ ['\\', '\n'] <:+: token.text.toList) := by
  obtain ⟨found, cut, whole, formed, follow, comments, tokens⟩ := exists_lexemes_of_layoutOf laid
  have short := linesShort_hiddenBreaks follow formed
  have hidden := hidden_of_layoutOf laid
  refine ⟨found, cut, whole, comments, tokens, short, ?_, fun unescaped => ?_⟩
  · rintro ⟨-, free⟩ token member interpreted escaped
    exact free token member interpreted (escaped.subset (by simp))
  · have free : ∀ token ∈ layout.tokens, token.Interpreted → '\n' ∉ token.text.toList := by
      intro token member interpreted inside
      exact unescaped token member interpreted (hidden token member interpreted inside)
    refine ⟨short.congr fun before behind place => ?_, free⟩
    refine hiddenBreaks_eq_zero fun lexeme member token isToken interpreted => ?_
    have inFound : lexeme ∈ found := place ▸ List.mem_append_left _ member
    exact free token (tokens ▸ mem_withSemicolons inFound isToken) interpreted

/-- A string that hides a line break, a comment on two lines and a token behind them. -/
theorem layoutOf_lines_escaped_break :
    let source := "x = \"\\\n\" /*\n*/ y"
    let layout : Layout :=
      ⟨[⟨.ident, "x", 1⟩, ⟨.op, "=", 1⟩, ⟨.string, "\"\\\n\"", 1⟩, .terminator 1, ⟨.ident, "y", 2⟩,
          .terminator 2],
        [⟨"/*\n*/".toList, 1, 2, false⟩]⟩
    layoutOf source = .ok layout ∧
      ∃ found, lexemes source.toList = .ok found ∧ textOf found = source.toList ∧
        layout.comments = (gapOf found).filterMap (Lexeme.comment? 0) ++
          (segmentsOf found).flatMap Segment.comments ∧
        layout.tokens = withSemicolons (segmentsOf found) ∧
        LinesShort hiddenBreaks found ∧
        ((LinesShort (fun _ => 0) found ∧
            ∀ token ∈ layout.tokens, token.Interpreted → '\n' ∉ token.text.toList) ↔
          ∀ token ∈ layout.tokens, token.Interpreted →
            ¬ ['\\', '\n'] <:+: token.text.toList) := by
  intro source layout
  have laid : layoutOf source = .ok layout := eq_ok_of_toOption (by decide +kernel)
  exact ⟨laid, layoutOf_lines laid⟩

/-- A string that goes over a line break is accepted, and the function behind it is given the fourth
line although it stands on the fifth. -/
theorem hidden_break_shifts_lines :
    let front := "package p\n\nvar x = \"a\\\nb\"\n"
    let literal : Token := ⟨.string, "\"a\\\nb\"", 3⟩
    let layout : Layout :=
      ⟨[⟨.keyword, "package", 1⟩, ⟨.ident, "p", 1⟩, .terminator 1, ⟨.keyword, "var", 3⟩,
          ⟨.ident, "x", 3⟩, ⟨.op, "=", 3⟩, literal, .terminator 3, ⟨.keyword, "func", 4⟩,
          ⟨.ident, "f", 4⟩, ⟨.op, "(", 4⟩, ⟨.op, ")", 4⟩, ⟨.op, "\x7b", 4⟩, ⟨.op, "\x7d", 4⟩,
          .terminator 4],
        []⟩
    layoutOf (front ++ "func f() \x7b\x7d\n") = .ok layout ∧
      literal.Interpreted ∧ '\n' ∈ literal.text.toList ∧ lineAfter front.toList = 5 := by
  intro front literal layout
  exact ⟨eq_ok_of_toOption (by decide +kernel), by decide +kernel⟩

end GoApiDoc.Go
