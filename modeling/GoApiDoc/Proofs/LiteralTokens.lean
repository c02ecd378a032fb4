/-
This file says that the lexer and the decoder agree on where a literal ends. The lexer looks for the
first quote that no backslash takes along, and a backslash takes one character with it; the decoder
reads pieces, and some escapes are ten characters long. Between the quotes that the lexer has found
the decoder never meets a quote or a line break, so what can still be wrong with a token is one of
its escapes, or the number of characters in a rune. The other way round, the spelling of a piece has
a quote or a backslash only where the lexer passes over it, so a literal that the decoder takes is
one token, with the semicolon that ends the source behind it.
-/

import GoApiDoc.Proofs.LiteralGrammar

namespace GoApiDoc.Go

open Text

/-! ### Faults of a token -/

/-- What can be wrong with an escape: its form, or a number that is no code point. -/
def escapeFaults : List LiteralFault :=
  [.badEscape, .beyondUnicode, .escapeTooLarge]

theorem mem_escapeFaults_of_pointOf {point : Nat} {fault : LiteralFault}
    (failed : pointOf point = .error fault) : fault ∈ escapeFaults := by
  unfold pointOf at failed
  split at failed
  · obtain rfl := Except.error.inj failed
    decide
  split at failed
  · nomatch failed
  · obtain rfl := Except.error.inj failed
    decide

/-- Between the quotes of a token only an escape can be wrong. -/
theorem mem_escapeFaults_of_decodePieces {quote : Char} (mark : quote = '"' ∨ quote = '\'')
    {body : List Char} (isBody : QuotedBody quote body) {fault : LiteralFault}
    (failed : decodePieces quote body = .error fault) : fault ∈ escapeFaults := by
  have backslash : ¬('\\' = '\n' ∨ '\\' = quote) := by rcases mark with rfl | rfl <;> decide
  have run := decodes quote body
  rw [failed] at run
  clear failed
  generalize same : Except.error fault = result at run
  induction run with
  | nil => nomatch same
  | stray ends =>
    cases isBody with
    | plain other inLine => exact absurd ends (not_or.mpr ⟨inLine, other⟩)
    | escaped => exact absurd ends backslash
  | faulty _ read =>
    obtain rfl := Except.error.inj same
    cases isBody with
    | plain _ _ noEscape => exact absurd rfl noEscape
    | escaped =>
      obtain rfl | ⟨number, -, noPoint⟩ := escape_eq_error read
      · decide
      · exact mem_escapeFaults_of_pointOf noPoint
  | escaped _ read _ inductionHypothesis =>
    cases isBody with
    | plain _ _ noEscape => exact absurd rfl noEscape
    | escaped isBody =>
      obtain ⟨count, rfl, -, digits⟩ := escape_eq_ok read
      exact inductionHypothesis (isBody.drop digits) (map_eq_error.mp same.symm).symm
  | plain _ noEscape _ inductionHypothesis =>
    cases isBody with
    | plain _ _ _ isBody => exact inductionHypothesis isBody (map_eq_error.mp same.symm).symm
    | escaped => exact absurd rfl noEscape

theorem unquoteList_raw (body : List Char) :
    unquoteList (backquote :: (body ++ [backquote])) =
      .ok ((body.filter (· ≠ '\r')).map .char) := by
  rw [unquoteList_concat, if_pos rfl, if_pos rfl]

theorem fault_of_quoted {quote : Char} (mark : quote = '"' ∨ quote = '\'') {body : List Char}
    (isBody : QuotedBody quote body) {fault : LiteralFault}
    (failed : unquoteList (quote :: (body ++ [quote])) = .error fault) :
    fault ∈ escapeFaults ∨ fault = .notOneRune ∧ quote = '\'' := by
  rw [unquoteList_quoted mark] at failed
  obtain failed | ⟨value, -, failed⟩ := bind_eq_error.mp failed
  · exact Or.inl (mem_escapeFaults_of_decodePieces mark isBody failed)
  · split at failed
    · next many => exact Or.inr ⟨(Except.error.inj failed).symm, many.1⟩
    · nomatch failed

/-! ### The kind of a literal -/

/-- The kind of a literal in these quotes. -/
def literalKind (quote : Char) : TokenKind :=
  if quote = '\'' then .rune else .string

theorem nextLexeme_quote {quote : Char} (mark : quote = '"' ∨ quote = '\'') (rest : List Char) :
    nextLexeme quote rest = match quotedLength quote rest with
      | some length => .ok (.token (literalKind quote), length)
      | none => .error .openLiteral := by
  rcases mark with rfl | rfl
  · rfl
  · rfl

/-- A token in single quotes, and no other, is a rune. -/
theorem kind_of_quoted {quote : Char} (mark : quote = '"' ∨ quote = '\'') {rest : List Char}
    {kind : TokenKind} {extra : Nat} (cut : nextLexeme quote rest = .ok (.token kind, extra)) :
    kind = literalKind quote := by
  rw [nextLexeme_quote mark] at cut
  split at cut
  · exact (Shape.token.inj (Prod.mk.inj (Except.ok.inj cut)).1).symm
  · nomatch cut

/-- The decoder takes the token, or one of its escapes is wrong, or it is a rune and does not hold
one character. It takes every token in backquotes. -/
def Token.DecodedInStep (token : Token) : Prop :=
  (token.text.toList.head? = some backquote → ∃ value, unquote token.text = .ok value) ∧
    ∀ fault, unquote token.text = .error fault →
      fault ∈ escapeFaults ∨ fault = .notOneRune ∧ token.kind = .rune

theorem decodedInStep_of_nextLexeme {first : Char} {rest : List Char} {kind : TokenKind}
    {extra line : Nat} (cut : nextLexeme first rest = .ok (.token kind, extra))
    (literal : kind = .string ∨ kind = .rune) :
    Token.DecodedInStep ⟨kind, String.ofList (first :: rest.take extra), line⟩ := by
  have spelling := spelling_of_nextLexeme cut
  rw [if_pos literal] at spelling
  simp only [Token.DecodedInStep, unquote_eq_error, String.toList_ofList]
  generalize first :: rest.take extra = text at spelling
  cases spelling with
  | @quoted _ body mark isBody =>
    constructor
    · intro raw
      obtain rfl := Option.some.inj raw
      rcases mark with raw | raw <;> exact absurd raw (by decide)
    · intro fault failed
      refine (fault_of_quoted mark isBody failed).imp_right fun ⟨same, single⟩ => ⟨same, ?_⟩
      rw [kind_of_quoted mark cut, literalKind, if_pos single]
  | @raw body free =>
    constructor
    · intro _
      refine ⟨.plain (String.ofList (body.filter (· ≠ '\r'))), ?_⟩
      rw [unquote_eq_ok, Text.points_plain, String.toList_ofList, String.toList_ofList,
        unquoteList_raw]
    · intro fault failed
      rw [unquoteList_raw] at failed
      nomatch failed

/-! ### Pieces as a token -/

/-- The lexer finds the end of what it takes for the text between two quotes. -/
theorem quotedLength_append {quote : Char} (mark : quote = '"' ∨ quote = '\'') {body : List Char}
    (isBody : QuotedBody quote body) (rest : List Char) :
    quotedLength quote (body ++ quote :: rest) = some (body.length + 1) := by
  have backslash : '\\' ≠ quote := by rcases mark with rfl | rfl <;> decide
  induction isBody with
  | nil => rw [List.nil_append, quotedLength.eq_def, List.length_nil]; exact if_pos rfl
  | plain other inLine noEscape _ inductionHypothesis =>
    rw [List.cons_append, quotedLength.eq_def]
    simp only [if_neg other, if_neg inLine, if_neg noEscape, inductionHypothesis, Option.map_some,
      List.length_cons]
  | escaped _ inductionHypothesis =>
    rw [List.cons_append, List.cons_append, quotedLength.eq_def]
    have inLine : '\\' ≠ '\n' := by decide
    simp only [if_neg backslash, if_neg inLine, if_true, inductionHypothesis, Option.map_some,
      List.length_cons]

theorem QuotedBody.append {quote : Char} {plain body : List Char}
    (ordinary : ∀ char ∈ plain, char ≠ quote ∧ char ≠ '\n' ∧ char ≠ '\\')
    (isBody : QuotedBody quote body) : QuotedBody quote (plain ++ body) := by
  induction plain with
  | nil => exact isBody
  | cons char plain inductionHypothesis =>
    rw [List.forall_mem_cons] at ordinary
    obtain ⟨⟨other, inLine, noEscape⟩, ordinary⟩ := ordinary
    exact .plain other inLine noEscape (inductionHypothesis ordinary)

theorem HexDigit.char_ordinary {quote : Char} (mark : quote = '"' ∨ quote = '\'')
    (digit : HexDigit) : digit.char ≠ quote ∧ digit.char ≠ '\n' ∧ digit.char ≠ '\\' := by
  have inside := digit.isHexDigit_char
  refine ⟨ne_of_class inside quote ?_, ne_of_class inside '\n' (by decide),
    ne_of_class inside '\\' (by decide)⟩
  rcases mark with rfl | rfl <;> decide

theorem octalChar_ordinary {quote : Char} (mark : quote = '"' ∨ quote = '\'') (digit : Fin 8) :
    octalChar digit ≠ quote ∧ octalChar digit ≠ '\n' ∧ octalChar digit ≠ '\\' := by
  have inside := isOctalDigit_octalChar digit
  refine ⟨ne_of_class inside quote ?_, ne_of_class inside '\n' (by decide),
    ne_of_class inside '\\' (by decide)⟩
  rcases mark with rfl | rfl <;> decide

/-- The lexer takes what pieces spell for the text between two quotes. -/
theorem quotedBody_flatMap {quote : Char} (mark : quote = '"' ∨ quote = '\'')
    (pieces : List (LiteralPiece quote)) :
    QuotedBody quote (pieces.flatMap LiteralPiece.spelling) := by
  induction pieces with
  | nil => exact .nil
  | cons piece rest inductionHypothesis =>
    rw [List.flatMap_cons]
    cases piece with
    | plain char other inLine noEscape =>
      exact .plain other inLine noEscape inductionHypothesis
    | letter letter char listed => exact .escaped inductionHypothesis
    | octal digits three =>
      cases digits with
      | nil => nomatch three
      | cons digit digits =>
        refine .escaped (QuotedBody.append ?_ inductionHypothesis)
        exact List.forall_mem_map.mpr fun digit _ => octalChar_ordinary mark digit
    | hex letter digits listed =>
      refine .escaped (QuotedBody.append ?_ inductionHypothesis)
      exact List.forall_mem_map.mpr fun digit _ => digit.char_ordinary mark

/-- A literal of pieces is one token, and the end of the source ends the statement. -/
theorem layoutOf_literalOf {quote : Char} (mark : quote = '"' ∨ quote = '\'')
    (pieces : List (LiteralPiece quote)) :
    layoutOf (literalOf pieces) =
      .ok ⟨[⟨literalKind quote, literalOf pieces, 1⟩, .terminator 1], []⟩ := by
  have length := quotedLength_append mark (quotedBody_flatMap mark pieces) []
  have cut : nextLexeme quote (pieces.flatMap LiteralPiece.spelling ++ [quote] ++ []) =
      .ok (.token (literalKind quote),
        (pieces.flatMap LiteralPiece.spelling ++ [quote]).length) := by
    rw [List.append_nil, nextLexeme_quote mark, length, List.length_append, List.length_singleton]
  have ends : ∀ body,
      Lays (Token.endsStatement ⟨literalKind quote, String.ofList (quote :: body), 1⟩)
        (1 + Lexeme.lineBreaks ⟨.token (literalKind quote), quote :: body, 1⟩) []
        [.terminator 1] := by
    intro body
    rcases mark with rfl | rfl
    · exact Lays.nil true 1
    · exact Lays.nil true 1
  have laid : Lays false 1 _ _ := Lays.token cut (ends _)
  rw [List.append_nil] at laid
  apply layoutOf_of_lays
  rw [literalOf, String.toList_ofList]
  exact laid

/-! ### Agreement -/

/-- The lexer and the decoder agree on the end of a literal. Of a token that is a literal the
decoder finds neither that it is not in quotes nor that a quote or a line break stands between them:
if it does not take the token, an escape is wrong, or it is a rune and does not hold one character.
And a text in double or single quotes that the decoder takes is one token. -/
theorem literals_in_step :
    (∀ (source : String) (layout : Layout), layoutOf source = .ok layout →
      ∀ token ∈ layout.tokens, token.kind = .string ∨ token.kind = .rune → token.DecodedInStep) ∧
      ∀ (quote : Char) (text : String) (value : Text), quote = '"' ∨ quote = '\'' →
        text.toList.head? = some quote → unquote text = .ok value →
          layoutOf text = .ok ⟨[⟨literalKind quote, text, 1⟩, .terminator 1], []⟩ := by
  constructor
  · intro source layout laid
    refine forall_tokens_of_layoutOf ?_ ?_ laid
    · intro line literal
      rcases literal with literal | literal <;> nomatch literal
    · intro first rest kind extra line cut
      exact decodedInStep_of_nextLexeme cut
  · intro quote text value mark starts decoded
    obtain ⟨pieces, -, rfl, -⟩ := exists_pieces_of_unquote mark starts decoded
    exact layoutOf_literalOf mark pieces

/-- The statement at an escape without a meaning, a rune of two characters and a raw literal, and at
a literal that ends with an escaped quote. -/
theorem literals_in_step_four_literals :
    let source := "package p\n\nvar x, y, z = \"\\q\", 'ab', " ++
      String.ofList [backquote, '\\', 'q', backquote]
    let escape : Token := ⟨.string, "\"\\q\"", 3⟩
    let rune : Token := ⟨.rune, "'ab'", 3⟩
    let raw : Token := ⟨.string, String.ofList [backquote, '\\', 'q', backquote], 3⟩
    (∃ layout, layoutOf source = .ok layout ∧ ∀ token ∈ [escape, rune, raw],
      (token ∈ layout.tokens ∧ (token.kind = .string ∨ token.kind = .rune)) ∧
        token.DecodedInStep) ∧
      (unquote escape.text).toOption = none ∧ (unquote rune.text).toOption = none ∧
      unquote "\"\\\"\"" = .ok ↑"\"" ∧
      layoutOf "\"\\\"\"" = .ok ⟨[⟨.string, "\"\\\"\"", 1⟩, .terminator 1], []⟩ := by
  intro source escape rune raw
  have quoted : unquote "\"\\\"\"" = .ok ↑"\"" := eq_ok_of_toOption (by decide +kernel)
  have found : ((layoutOf source).toOption.map Layout.tokens).getD [] =
      [⟨.keyword, "package", 1⟩, ⟨.ident, "p", 1⟩, .terminator 1, ⟨.keyword, "var", 3⟩,
        ⟨.ident, "x", 3⟩, ⟨.op, ",", 3⟩, ⟨.ident, "y", 3⟩, ⟨.op, ",", 3⟩, ⟨.ident, "z", 3⟩,
        ⟨.op, "=", 3⟩, escape, ⟨.op, ",", 3⟩, rune, ⟨.op, ",", 3⟩, raw, .terminator 3] := by
    decide +kernel
  refine ⟨?_, by decide +kernel, by decide +kernel, quoted,
    literals_in_step.2 '"' _ _ (Or.inl rfl) (by decide +kernel) quoted⟩
  cases laid : layoutOf source with
  | error fault =>
    rw [laid] at found
    nomatch found
  | ok layout =>
    rw [laid] at found
    refine ⟨layout, rfl, fun token member => ?_⟩
    have inLayout : token ∈ layout.tokens ∧ (token.kind = .string ∨ token.kind = .rune) := by
      change layout.tokens = _ at found
      rw [found]
      revert token
      decide +kernel
    exact ⟨inLayout, literals_in_step.1 source layout laid token inLayout.1 inLayout.2⟩

end GoApiDoc.Go
