/-
This file says how literals are spelled, and what becomes of a run of tokens that is spelled as one
text and decoded as one literal.

The lexer ends a quoted literal at the first quote that no backslash takes along. The decoder goes
over the same characters piece by piece, and some pieces are escapes of many characters. The two
stay in step, because no escape but that of the quote itself has a quote in it: where the lexer saw
the end, the decoder meets a quote that it cannot read. So a text that goes on behind a quoted
literal is never decoded. A text between backquotes is not looked at by the decoder, and there a run
of several tokens passes for one literal if it starts and ends with raw literals.
-/

import GoApiDoc.Proofs.Lexing
import GoApiDoc.Proofs.Reading
import GoApiDoc.Proofs.Seam
import GoApiDoc.Proofs.Texts

namespace GoApiDoc.Go

open Text

/-! ### Between quotes -/

/-- A character that encloses literals. -/
def isQuote (char : Char) : Bool :=
  char == '"' || char == '\'' || char == backquote

/-- What the lexer takes for the text between two quotes: characters other than the quote and a line
break, and backslashes that each take one more character along. -/
inductive QuotedBody (quote : Char) : List Char → Prop
  | nil : QuotedBody quote []
  | plain {char : Char} {rest : List Char} (other : char ≠ quote) (inLine : char ≠ '\n')
      (noEscape : char ≠ '\\') (body : QuotedBody quote rest) : QuotedBody quote (char :: rest)
  | escaped {char : Char} {rest : List Char} (body : QuotedBody quote rest) :
      QuotedBody quote ('\\' :: char :: rest)

/-- What is cut off as a literal ends with the first quote that no backslash takes along. -/
theorem quotedLength_eq_some {quote : Char} {text : List Char} {length : Nat}
    (found : quotedLength quote text = some length) :
    ∃ body rest, text = body ++ quote :: rest ∧ length = body.length + 1 ∧
      QuotedBody quote body := by
  fun_induction quotedLength quote text generalizing length with
  | case1 => cases found
  | case2 rest =>
    obtain rfl := Option.some.inj found
    exact ⟨[], rest, rfl, rfl, .nil⟩
  | case3 => cases found
  | case4 => cases found
  | case5 char rest other inLine inductionHypothesis =>
    obtain ⟨inner, foundInner, rfl⟩ := Option.map_eq_some_iff.mp found
    obtain ⟨body, tail, rfl, rfl, isBody⟩ := inductionHypothesis foundInner
    exact ⟨'\\' :: char :: body, tail, rfl, rfl, .escaped isBody⟩
  | case6 char rest other inLine noEscape inductionHypothesis =>
    obtain ⟨inner, foundInner, rfl⟩ := Option.map_eq_some_iff.mp found
    obtain ⟨body, tail, rfl, rfl, isBody⟩ := inductionHypothesis foundInner
    exact ⟨char :: body, tail, rfl, rfl, .plain other inLine noEscape isBody⟩

/-- A raw literal ends with the first backquote. -/
theorem rawLength_eq_some {text : List Char} {length : Nat} (found : rawLength text = some length) :
    ∃ body rest, text = body ++ backquote :: rest ∧ length = body.length + 1 ∧
      backquote ∉ body := by
  fun_induction rawLength text generalizing length with
  | case1 => cases found
  | case2 rest =>
    obtain rfl := Option.some.inj found
    exact ⟨[], rest, rfl, rfl, List.not_mem_nil⟩
  | case3 char rest other inductionHypothesis =>
    obtain ⟨inner, foundInner, rfl⟩ := Option.map_eq_some_iff.mp found
    obtain ⟨body, tail, rfl, rfl, free⟩ := inductionHypothesis foundInner
    exact ⟨char :: body, tail, rfl, rfl,
      List.not_mem_cons_of_ne_of_not_mem (Ne.symm other) free⟩

/-! ### Tokens without quotes -/

/-- The characters that a length takes are no quotes. -/
def TakesNoQuote (length : List Char → Nat) : Prop :=
  ∀ text : List Char, ∀ char ∈ text.take (length text), isQuote char = false

/-- Two runs one after the other take no quote if neither does. -/
theorem TakesNoQuote.then {first second : List Char → Nat} (ofFirst : TakesNoQuote first)
    (ofSecond : TakesNoQuote second) : TakesNoQuote (lengthThen first second) := by
  intro text char member
  rw [lengthThen, List.take_add] at member
  rcases List.mem_append.mp member with inFirst | inSecond
  · exact ofFirst text char inFirst
  · exact ofSecond _ char inSecond

/-- A class that has no quote in it. -/
def Quoteless (inClass : Char → Bool) : Prop :=
  ∀ char, inClass char → isQuote char = false

theorem quoteless_of_quotes {inClass : Char → Bool} (double : inClass '"' = false)
    (single : inClass '\'' = false) (raw : inClass backquote = false) : Quoteless inClass := by
  intro char inside
  simp only [isQuote, Bool.or_eq_false_iff, beq_eq_false_iff_ne]
  refine ⟨⟨?_, ?_⟩, ?_⟩
  · rintro rfl
    exact Bool.false_ne_true (double.symm.trans inside)
  · rintro rfl
    exact Bool.false_ne_true (single.symm.trans inside)
  · rintro rfl
    exact Bool.false_ne_true (raw.symm.trans inside)

theorem takesNoQuote_runLength {inClass : Char → Bool} (quoteless : Quoteless inClass) :
    TakesNoQuote (runLength inClass) := by
  intro text char member
  have run : text.take (runLength inClass text) = text.takeWhile inClass :=
    (List.prefix_iff_eq_take.mp (List.takeWhile_prefix inClass)).symm
  rw [run] at member
  exact quoteless char (List.all_eq_true.mp List.all_takeWhile char member)

theorem quoteless_decimalPart : Quoteless isDecimalPart :=
  quoteless_of_quotes (by decide) (by decide) (by decide)

theorem quoteless_hexPart : Quoteless isHexPart :=
  quoteless_of_quotes (by decide) (by decide) (by decide)

theorem quoteless_isWord : Quoteless isWord :=
  quoteless_of_quotes (by decide) (by decide) (by decide)

theorem takesNoQuote_fractionLength {isPart : Char → Bool} (quoteless : Quoteless isPart) :
    TakesNoQuote (fractionLength isPart) := by
  intro text char member
  unfold fractionLength at member
  split at member
  · next rest =>
    rw [List.take_succ_cons] at member
    rcases List.mem_cons.mp member with rfl | member
    · decide
    · exact takesNoQuote_runLength quoteless rest char member
  · exact absurd member (by simp)

theorem takesNoQuote_imaginaryLength : TakesNoQuote imaginaryLength := by
  intro text char member
  unfold imaginaryLength at member
  split at member
  · obtain rfl := List.mem_singleton.mp member
    decide
  · exact absurd member (by simp)

theorem takesNoQuote_exponentLength {isMark : Char → Bool} (quoteless : Quoteless isMark) :
    TakesNoQuote (exponentLength isMark) := by
  intro text char member
  unfold exponentLength at member
  match text with
  | [] => exact absurd member (by simp)
  | [mark] => exact absurd member (by simp)
  | mark :: sign :: tail =>
    simp only at member
    split at member
    · next isMark =>
      split at member
      · next isSign =>
        split at member
        · exact absurd member (by simp)
        · rw [List.take_succ_cons, List.take_succ_cons] at member
          rcases List.mem_cons.mp member with rfl | member
          · exact quoteless _ isMark
          · rcases List.mem_cons.mp member with rfl | member
            · rcases isSign with rfl | rfl <;> decide
            · exact takesNoQuote_runLength quoteless_decimalPart tail char member
      · split at member
        · exact absurd member (by simp)
        · rw [List.take_succ_cons] at member
          rcases List.mem_cons.mp member with rfl | member
          · exact quoteless _ isMark
          · exact takesNoQuote_runLength quoteless_decimalPart (sign :: tail) char member
    · exact absurd member (by simp)

theorem takesNoQuote_suffixLength {isMark : Char → Bool} (quoteless : Quoteless isMark) :
    TakesNoQuote (suffixLength isMark) :=
  (takesNoQuote_exponentLength quoteless).then takesNoQuote_imaginaryLength

theorem takesNoQuote_hexLength : TakesNoQuote hexLength :=
  ((takesNoQuote_runLength quoteless_hexPart).then
    (takesNoQuote_fractionLength quoteless_hexPart)).then
    (takesNoQuote_suffixLength (quoteless_of_quotes (by decide) (by decide) (by decide)))

theorem takesNoQuote_decimalLength : TakesNoQuote decimalLength :=
  ((takesNoQuote_runLength quoteless_decimalPart).then
    (takesNoQuote_fractionLength quoteless_decimalPart)).then
    (takesNoQuote_suffixLength (quoteless_of_quotes (by decide) (by decide) (by decide)))

/-- No number holds a quote. -/
theorem not_isQuote_of_numberLength {first : Char} {rest : List Char} {length : Nat}
    (found : numberLength first rest = some length) :
    ∀ char ∈ rest.take length, isQuote char = false := by
  have digits := takesNoQuote_runLength quoteless_decimalPart
  have decimal := takesNoQuote_decimalLength rest
  unfold numberLength at found
  split at found
  · split at found
    · simp at found
    · next digit tail =>
      split at found
      · obtain rfl := Option.some.inj found
        exact digits.then (takesNoQuote_suffixLength
          (quoteless_of_quotes (by decide) (by decide) (by decide))) (digit :: tail)
      · simp at found
  · split at found
    · simp at found
    · split at found
      · split at found
        · obtain rfl := Option.some.inj found
          simp
        · next mark tail =>
          split at found
          · next base =>
            obtain rfl := Option.some.inj found
            rw [List.take_succ_cons, List.forall_mem_cons]
            exact ⟨by rcases base with rfl | rfl <;> decide, takesNoQuote_hexLength tail⟩
          · split at found
            · next base =>
              simp only at found
              split at found
              · obtain rfl := Option.some.inj found
                exact decimal
              · obtain rfl := Option.some.inj found
                rw [Nat.add_assoc, Nat.add_comm 1, List.take_succ_cons, List.forall_mem_cons]
                refine ⟨by rcases base with rfl | rfl | rfl | rfl <;> decide, ?_⟩
                exact digits.then takesNoQuote_imaginaryLength tail
            · obtain rfl := Option.some.inj found
              exact decimal
      · obtain rfl := Option.some.inj found
        exact decimal

theorem not_isQuote_of_operatorLength {first : Char} {rest : List Char} {length : Nat}
    (found : operatorLength first rest = some length) :
    ∀ char ∈ rest.take length, isQuote char = false := by
  have signs : ∀ char ∈ ['.', '=', '-', '<', '>', '&', '^', '|', '+'], isQuote char = false := by
    simp [isQuote, backquote]
  suffices inside : ∀ char ∈ rest.take length,
      char ∈ ['.', '=', '-', '<', '>', '&', '^', '|', '+'] from
    fun char member => signs char (inside char member)
  unfold operatorLength at found
  match rest with
  | [] => simp
  | [char] => grind
  | char :: second :: tail => grind

/-! ### The spelling of a token -/

/-- The quote that a token starts with, if it is a literal. -/
def Token.quote? (token : Token) : Option Char :=
  if token.kind = .string ∨ token.kind = .rune then token.text.toList.head? else none

/-- How tokens are spelled: a literal with the quote it is enclosed in, or anything else, where no
quote occurs. -/
inductive Spelling : Option Char → List Char → Prop
  | quoted {quote : Char} {body : List Char} (mark : quote = '"' ∨ quote = '\'')
      (isBody : QuotedBody quote body) : Spelling (some quote) (quote :: (body ++ [quote]))
  | raw {body : List Char} (free : backquote ∉ body) :
      Spelling (some backquote) (backquote :: (body ++ [backquote]))
  | bare {text : List Char} (full : text ≠ []) (free : ∀ char ∈ text, isQuote char = false) :
      Spelling none text

/-- A token that is spelled as its kind asks. -/
def Token.Spelled (token : Token) : Prop :=
  Spelling token.quote? token.text.toList

theorem kind_of_wordShape {word : List Char} {kind : TokenKind}
    (shape : wordShape word = .token kind) : ¬(kind = .string ∨ kind = .rune) := by
  unfold wordShape at shape
  obtain rfl := Shape.token.inj shape
  split <;> simp

theorem spelling_of_nextSymbol {first : Char} {rest : List Char} {kind : TokenKind} {extra : Nat}
    (noQuote : isQuote first = false) (cut : nextSymbol first rest = .ok (.token kind, extra)) :
    ¬(kind = .string ∨ kind = .rune) ∧
      ∀ char ∈ first :: rest.take extra, isQuote char = false := by
  rw [List.forall_mem_cons]
  generalize same : Shape.token kind = shape at cut
  cases symbolForm_of_nextSymbol cut with
  | word =>
    exact ⟨kind_of_wordShape same.symm, noQuote, takesNoQuote_runLength quoteless_isWord rest⟩
  | number found =>
    obtain rfl := Shape.token.inj same
    exact ⟨by simp, noQuote, not_isQuote_of_numberLength found⟩
  | operator found =>
    obtain rfl := Shape.token.inj same
    refine ⟨?_, noQuote, not_isQuote_of_operatorLength found⟩
    split <;> simp

/-- A literal is spelled in its quotes, and no other token holds a quote. -/
theorem spelling_of_nextLexeme {first : Char} {rest : List Char} {kind : TokenKind} {extra : Nat}
    (cut : nextLexeme first rest = .ok (.token kind, extra)) :
    Spelling (if kind = .string ∨ kind = .rune then some first else none)
      (first :: rest.take extra) := by
  rw [nextLexeme_eq_ok] at cut
  generalize same : Shape.token kind = shape at cut
  cases cut with
  | newline => cases same
  | blank => cases same
  | lineComment => cases same
  | blockComment => cases same
  | quoted mark closed =>
    obtain rfl := Shape.token.inj same
    obtain ⟨body, tail, rfl, rfl, isBody⟩ := quotedLength_eq_some closed
    rw [if_pos (by split <;> simp), List.take_length_add_append]
    exact .quoted mark isBody
  | raw mark closed =>
    subst mark
    obtain rfl := Shape.token.inj same
    obtain ⟨body, tail, rfl, rfl, free⟩ := rawLength_eq_some closed
    rw [if_pos (Or.inl rfl), List.take_length_add_append]
    exact .raw free
  | symbol noBreak noGap noLine noBlock noQuote notRaw cut =>
    subst same
    have bare : isQuote first = false := by
      simp only [isQuote, Bool.or_eq_false_iff, beq_eq_false_iff_ne]
      exact ⟨not_or.mp noQuote, notRaw⟩
    obtain ⟨noLiteral, free⟩ := spelling_of_nextSymbol bare cut
    rw [if_neg noLiteral]
    exact .bare (List.cons_ne_nil _ _) free

/-- Every token of a layout is spelled as its kind asks. -/
theorem spelled_of_layoutOf {source : String} {layout : Layout}
    (laid : layoutOf source = .ok layout) : ∀ token ∈ layout.tokens, token.Spelled := by
  refine forall_tokens_of_layoutOf ?_ ?_ laid
  · intro line
    exact .bare (by simp [Token.terminator]) (by simp [Token.terminator]; decide)
  · intro first rest kind extra line cut
    have spelling := spelling_of_nextLexeme cut
    simpa only [Token.Spelled, Token.quote?, String.toList_ofList, List.head?_cons] using spelling

/-! ### Decoding in step with the lexer -/

theorem digitRun_append {isDigitOf : Char → Bool} {quote : Char}
    (outside : isDigitOf quote = false) (count : Nat) (text rest : List Char) :
    digitRun isDigitOf count (text ++ quote :: rest) = digitRun isDigitOf count text := by
  unfold digitRun
  rcases Nat.lt_or_ge text.length count with beyond | within
  · -- The run reaches the quote, and without the quote it is too short.
    have reached : quote ∈ (text ++ quote :: rest).take count := by
      rw [List.take_append, List.take_cons (Nat.sub_pos_of_lt beyond)]
      exact List.mem_append_right _ List.mem_cons_self
    have noRun : ¬((text ++ quote :: rest).take count).all isDigitOf := by
      intro all
      exact Bool.false_ne_true (outside.symm.trans (List.all_eq_true.mp all quote reached))
    have short : (text.take count).length ≠ count := by
      rw [List.length_take]
      omega
    exact (if_neg fun both => noRun both.2).trans (if_neg fun both => short both.1).symm
  · rw [List.take_append_of_le_length within]

/-- An escape never goes over the closing quote, which is no digit. -/
theorem escape_append {quote : Char} (hex : isHexDigit quote = false)
    (octal : isOctalDigit quote = false) {text : List Char} (full : text ≠ [])
    (rest : List Char) : escape (text ++ quote :: rest) = escape text := by
  cases text with
  | nil => exact absurd rfl full
  | cons letter text =>
    have octalRun := digitRun_append octal 3 (letter :: text) rest
    rw [List.cons_append] at octalRun
    simp only [escape, List.cons_append, digitRun_append hex, octalRun]

theorem digitRun_eq_some {isDigitOf : Char → Bool} {count : Nat} {text digits : List Char}
    (found : digitRun isDigitOf count text = some digits) :
    digits = text.take count ∧ digits.length = count ∧ ∀ digit ∈ digits, isDigitOf digit := by
  obtain ⟨⟨long, all⟩, same⟩ := Option.ite_none_right_eq_some.mp found
  obtain rfl := Option.some.inj same
  exact ⟨rfl, long, List.all_eq_true.mp all⟩

theorem not_backslash_of_isHexDigit {char : Char} (digit : isHexDigit char) : char ≠ '\\' := by
  rintro rfl
  exact absurd digit (by decide)

theorem not_backslash_of_isOctalDigit {char : Char} (digit : isOctalDigit char) : char ≠ '\\' := by
  rintro rfl
  exact absurd digit (by decide)

/-- Behind the letter of an escape the decoder takes digits only. -/
theorem escape_eq_ok {letter : Char} {point : Point} {rest : List Char} {used : Nat}
    (read : escape (letter :: rest) = .ok (point, used)) :
    ∃ count, used = count + 1 ∧ count ≤ rest.length ∧ ∀ digit ∈ rest.take count, digit ≠ '\\' := by
  unfold escape at read
  simp only at read
  split at read
  · simp only [Except.ok.injEq, Prod.mk.injEq] at read
    exact ⟨0, read.2.symm, Nat.zero_le _, by simp⟩
  split at read
  · next width _ =>
    split at read
    · next digits found =>
      obtain ⟨_, -, same⟩ := map_eq_ok.mp read
      obtain ⟨rfl, long, all⟩ := digitRun_eq_some found
      rw [List.length_take] at long
      exact ⟨width, (congrArg Prod.snd same).symm, by omega,
        fun digit member => not_backslash_of_isHexDigit (all digit member)⟩
    · simp at read
  · split at read
    · next digits found =>
      obtain ⟨_, -, same⟩ := map_eq_ok.mp read
      obtain ⟨rfl, long, all⟩ := digitRun_eq_some found
      rw [List.take_succ_cons, List.forall_mem_cons] at all
      rw [List.length_take, List.length_cons] at long
      exact ⟨2, (congrArg Prod.snd same).symm, by omega,
        fun digit member => not_backslash_of_isOctalDigit (all.2 digit member)⟩
    · simp at read

/-- A body goes on behind characters that are no backslashes. -/
theorem QuotedBody.drop {quote : Char} {body : List Char} (isBody : QuotedBody quote body)
    {count : Nat} (noEscape : ∀ char ∈ body.take count, char ≠ '\\') :
    QuotedBody quote (body.drop count) := by
  induction count generalizing body with
  | zero => exact isBody
  | succ count inductionHypothesis =>
    cases isBody with
    | nil => exact .nil
    | plain other inLine _ isBody =>
      rw [List.take_succ_cons, List.forall_mem_cons] at noEscape
      exact inductionHypothesis isBody noEscape.2
    | escaped isBody =>
      exact absurd rfl (noEscape '\\' List.mem_cons_self)

theorem map_shown (text : List Char) : text.map shown = text :=
  List.map_id text

/-- The first piece of a text. -/
theorem decodePieces_cons (quote char : Char) (rest : List Char) :
    decodePieces quote (char :: rest) =
      if char = '\n' ∨ char = quote then .error .strayCharacter
      else if char = '\\' then
        match escape rest with
        | .error fault => .error fault
        | .ok (decoded, used) => (decodePieces quote (rest.drop used)).map (decoded :: ·)
      else (decodePieces quote rest).map (.char char :: ·) := by
  rw [decodePieces, map_shown]
  rfl

/-- How the text between two quotes is decoded, piece by piece: it ends, or the first character is
none that may stand there, or it starts an escape or stands for itself, and the text behind is
decoded next. -/
inductive Decodes (quote : Char) : List Char → Except LiteralFault (List Point) → Prop
  | nil : Decodes quote [] (.ok [])
  | stray {char : Char} {rest : List Char} (ends : char = '\n' ∨ char = quote) :
      Decodes quote (char :: rest) (.error .strayCharacter)
  | faulty {rest : List Char} {fault : LiteralFault} (goesOn : ¬('\\' = '\n' ∨ '\\' = quote))
      (read : escape rest = .error fault) : Decodes quote ('\\' :: rest) (.error fault)
  | escaped {rest : List Char} {point : Point} {used : Nat}
      {result : Except LiteralFault (List Point)} (goesOn : ¬('\\' = '\n' ∨ '\\' = quote))
      (read : escape rest = .ok (point, used)) (behind : Decodes quote (rest.drop used) result) :
      Decodes quote ('\\' :: rest) (result.map (point :: ·))
  | plain {char : Char} {rest : List Char} {result : Except LiteralFault (List Point)}
      (goesOn : ¬(char = '\n' ∨ char = quote)) (noEscape : char ≠ '\\')
      (behind : Decodes quote rest result) :
      Decodes quote (char :: rest) (result.map (.char char :: ·))

/-- Every text is decoded in one of these ways. -/
theorem decodes (quote : Char) (body : List Char) :
    Decodes quote body (decodePieces quote body) := by
  induction body using drop_induction with
  | nil =>
    rw [decodePieces]
    exact .nil
  | cons char rest behind =>
    rw [decodePieces_cons]
    split
    · next ends => exact .stray ends
    · next goesOn =>
      split
      · next backslash =>
        subst backslash
        split
        · next read => exact .faulty goesOn read
        · next read => exact .escaped goesOn read (behind _)
      · next noEscape => exact .plain goesOn noEscape (behind 0)

/-- Where the lexer saw the end of a literal the decoder stops, if it came that far. -/
theorem decodePieces_append {quote : Char} (mark : quote = '"' ∨ quote = '\'') {body : List Char}
    (isBody : QuotedBody quote body) (rest : List Char) :
    decodePieces quote (body ++ quote :: rest) =
      (decodePieces quote body).bind fun _ => .error .strayCharacter := by
  have hex : isHexDigit quote = false := by rcases mark with rfl | rfl <;> decide
  have octal : isOctalDigit quote = false := by rcases mark with rfl | rfl <;> decide
  induction body using drop_induction with
  | nil => simp [decodePieces, Except.bind]
  | cons char text behind =>
    cases isBody with
    | plain other inLine noEscape isBody =>
      have tail := behind 0 isBody
      rw [List.drop_zero] at tail
      have goesOn := not_or.mpr ⟨inLine, other⟩
      rw [List.cons_append, decodePieces_cons, decodePieces_cons, if_neg goesOn, if_neg goesOn,
        if_neg noEscape, if_neg noEscape, tail]
      cases decodePieces quote text <;> rfl
    | @escaped letter text isBody =>
      have plain : ¬('\\' = '\n' ∨ '\\' = quote) := by rcases mark with rfl | rfl <;> decide
      have same := escape_append hex octal (List.cons_ne_nil letter text) rest
      rw [List.cons_append, decodePieces_cons, decodePieces_cons, if_neg plain, if_neg plain,
        if_pos rfl, if_pos rfl, same]
      cases read : escape (letter :: text) with
      | error fault => rfl
      | ok found =>
        obtain ⟨decoded, used⟩ := found
        obtain ⟨count, rfl, within, digits⟩ := escape_eq_ok read
        have tail := behind (count + 1) (isBody.drop digits)
        simp only [List.cons_append, List.drop_succ_cons, List.drop_append_of_le_length within]
        rw [List.drop_succ_cons] at tail
        rw [tail]
        cases decodePieces quote (text.drop count) <;> rfl

/-! ### A run decoded as one literal -/

/-- The text between the first and the last character, without carriage returns. -/
def between (text : String) : String :=
  String.ofList (((text.toList.drop 1).dropLast).filter (· ≠ '\r'))

/-- A run of more than one token ends with the spelling of the last one. -/
theorem joinAfter_concat (previous : Token) (middle : List Token) (last : Token) :
    ∃ text, (Token.joinAfter previous (middle ++ [last])).toList = text ++ last.text.toList := by
  induction middle generalizing previous with
  | nil =>
    refine ⟨(if previous.isWord && last.isWord then " " else "").toList, ?_⟩
    simp only [List.nil_append, Token.joinAfter, String.toList_append, String.toList_empty,
      List.append_nil]
  | cons token rest inductionHypothesis =>
    obtain ⟨text, same⟩ := inductionHypothesis token
    refine ⟨(if previous.isWord && token.isWord then " " else "").toList ++ token.text.toList ++
      text, ?_⟩
    simp only [List.cons_append, Token.joinAfter, String.toList_append, same, List.append_assoc]

theorem Spelling.ends {quote : Option Char} {text : List Char} (spelling : Spelling quote text) :
    ∃ front last, text = front ++ [last] ∧
      (quote = some last ∨ quote = none ∧ isQuote last = false) := by
  cases spelling with
  | @quoted quote body => exact ⟨quote :: body, quote, rfl, Or.inl rfl⟩
  | @raw body => exact ⟨backquote :: body, backquote, rfl, Or.inl rfl⟩
  | bare full free =>
    exact ⟨text.dropLast, text.getLast full, (List.dropLast_concat_getLast full).symm,
      Or.inr ⟨rfl, free _ (List.getLast_mem full)⟩⟩

theorem Spelling.isQuote {quote : Char} {text : List Char} (spelling : Spelling (some quote) text) :
    isQuote quote = true := by
  cases spelling with
  | quoted mark => rcases mark with rfl | rfl <;> rfl
  | raw => rfl

theorem Spelling.enclosed {quote : Char} {text : List Char}
    (spelling : Spelling (some quote) text) : ∃ body, text = quote :: (body ++ [quote]) := by
  cases spelling with
  | @quoted _ body => exact ⟨body, rfl⟩
  | @raw body => exact ⟨body, rfl⟩

/-- The first and the last character tell how a literal is decoded. -/
theorem unquoteList_concat (first last : Char) (body : List Char) :
    unquoteList (first :: (body ++ [last])) =
      if last = first then
        if first = backquote then .ok ((body.filter (· ≠ '\r')).map .char)
        else if first = '"' then decodePieces first body
        else if first = '\'' then (decodePieces first body).bind fun value =>
          if value.length = 1 then .ok value else .error .notOneRune
        else .error .unquoted
      else .error .unquoted := by
  rw [unquoteList, enclosed_concat, shown_char, shown_char]
  by_cases same : last = first
  · rw [if_pos same, if_pos same]
    dsimp only
    cases decodePieces first body <;> rfl
  · rw [if_neg same, if_neg same]

theorem unquoteList_of_not_isQuote {first : Char} (noQuote : isQuote first = false)
    (rest : List Char) : unquoteList (first :: rest) = .error .unquoted := by
  simp only [isQuote, Bool.or_eq_false_iff, beq_eq_false_iff_ne] at noQuote
  obtain ⟨⟨double, single⟩, raw⟩ := noQuote
  rcases List.eq_nil_or_concat rest with rfl | ⟨body, last, rfl⟩
  · rfl
  · rw [List.concat_eq_append, unquoteList_concat, if_neg raw, if_neg double, if_neg single,
      ite_self]

/-- What starts with a token that is no literal is none, whatever follows. -/
theorem unquoteList_of_bare {text : List Char} (spelling : Spelling none text)
    (rest : List Char) : unquoteList (text ++ rest) = .error .unquoted := by
  cases spelling with
  | bare full free =>
    cases text with
    | nil => exact absurd rfl full
    | cons first text => exact unquoteList_of_not_isQuote (free first List.mem_cons_self) _

section

variable {quote : Char} {text ending : List Char} (starts : Spelling (some quote) text)
include starts

/-- A literal and more behind it is decoded only if the last token ends with the same quote. -/
theorem unquoteList_of_ne {other : Option Char} (ends : Spelling other ending)
    (differ : some quote ≠ other) (middle : List Char) :
    unquoteList (text ++ (middle ++ ending)) = .error .unquoted := by
  obtain ⟨body, rfl⟩ := starts.enclosed
  obtain ⟨front, last, rfl, closes⟩ := ends.ends
  have different : last ≠ quote := by
    rintro rfl
    rcases closes with rfl | ⟨-, free⟩
    · exact differ rfl
    · exact Bool.false_ne_true (free.symm.trans starts.isQuote)
  rw [List.cons_append, ← List.append_assoc middle, ← List.append_assoc, unquoteList_concat,
    if_neg different]

/-- Between backquotes anything is taken. -/
theorem unquoteList_of_raw (raw : quote = backquote) (ends : Spelling (some quote) ending)
    (middle : List Char) :
    unquoteList (text ++ (middle ++ ending)) =
      .ok ((((text ++ (middle ++ ending)).drop 1).dropLast.filter (· ≠ '\r')).map .char) := by
  obtain ⟨body, rfl⟩ := starts.enclosed
  obtain ⟨other, rfl⟩ := ends.enclosed
  have whole : quote :: (body ++ [quote]) ++ (middle ++ quote :: (other ++ [quote])) =
      quote :: (body ++ [quote] ++ middle ++ quote :: other ++ [quote]) := by
    simp only [List.cons_append, List.append_assoc]
  rw [whole, unquoteList_concat, if_pos rfl, if_pos raw, List.drop_succ_cons, List.drop_zero,
    List.dropLast_concat]

/-- Between other quotes the decoder stops at the end of the first literal. -/
theorem unquoteList_of_quoted (notRaw : quote ≠ backquote) (ends : Spelling (some quote) ending)
    (middle : List Char) :
    (∀ value, unquoteList (text ++ (middle ++ ending)) ≠ .ok value) ∧
      (unquoteList (text ++ (middle ++ ending)) = .error .escapeTooLarge ↔
        unquoteList text = .error .escapeTooLarge) := by
  obtain ⟨other, rfl⟩ := ends.enclosed
  cases starts with
  | raw free => exact absurd rfl notRaw
  | @quoted _ body mark isBody =>
    have whole : quote :: (body ++ [quote]) ++ (middle ++ quote :: (other ++ [quote])) =
        quote :: (body ++ quote :: (middle ++ quote :: other) ++ [quote]) := by
      simp only [List.cons_append, List.append_assoc, List.nil_append]
    rw [whole, unquoteList_concat, unquoteList_concat, if_pos rfl, if_pos rfl, if_neg notRaw,
      if_neg notRaw, decodePieces_append mark isBody]
    rcases mark with rfl | rfl
    · cases decodePieces '"' body <;> simp [Except.bind]
    · cases decodePieces '\'' body with
      | error fault => simp [Except.bind]
      | ok value =>
        by_cases one : value.length = 1 <;> simp [Except.bind, one]

end

/-- A text that starts and ends with the spelling of a token. The decoder takes it if both are raw
literals, and only then; and where the first is a literal in other quotes, the fault of the first
is the fault of the whole. -/
theorem unquoteList_append {first last : Option Char} {text ending : List Char}
    (starts : Spelling first text) (ends : Spelling last ending) (middle : List Char) :
    (∀ value, unquoteList (text ++ (middle ++ ending)) = .ok value ↔
      first = some backquote ∧ last = some backquote ∧
        value = (((text ++ (middle ++ ending)).drop 1).dropLast.filter (· ≠ '\r')).map .char) ∧
      (unquoteList (text ++ (middle ++ ending)) = .error .escapeTooLarge ↔
        first = last ∧ unquoteList text = .error .escapeTooLarge) := by
  cases first with
  | none =>
    have alone := unquoteList_of_bare starts []
    rw [List.append_nil] at alone
    rw [unquoteList_of_bare starts, alone]
    simp
  | some quote =>
    by_cases same : some quote = last
    · subst same
      by_cases raw : quote = backquote
      · obtain ⟨body, rfl⟩ := starts.enclosed
        have alone : unquoteList (quote :: (body ++ [quote])) =
            .ok ((body.filter (· ≠ '\r')).map .char) := by
          rw [unquoteList_concat, if_pos rfl, if_pos raw]
        rw [unquoteList_of_raw starts raw ends, alone]
        simp [raw, eq_comm]
      · obtain ⟨never, fails⟩ := unquoteList_of_quoted starts raw ends middle
        simp [never, fails, raw]
    · rw [unquoteList_of_ne starts ends same]
      refine ⟨fun value => ⟨fun decoded => (nomatch decoded), ?_⟩, ?_⟩
      · rintro ⟨first, rfl, -⟩
        exact absurd first same
      · simp [same]

theorem unquote_eq_ok {literal : String} {value : Text} :
    unquote literal = .ok value ↔ unquoteList literal.toList = .ok value.points := by
  rw [unquote, map_eq_ok]
  constructor
  · rintro ⟨points, decoded, rfl⟩
    rw [decoded, Text.points_ofPoints]
  · intro decoded
    exact ⟨value.points, decoded, Text.ofPoints_points value⟩

theorem unquote_eq_error {literal : String} {fault : LiteralFault} :
    unquote literal = .error fault ↔ unquoteList literal.toList = .error fault := by
  unfold unquote
  cases unquoteList literal.toList <;> simp [Except.map]

section

variable {first last : Token} {middle : List Token}

/-- Joined tokens start with the first and end with the last. -/
theorem toList_join_concat (first last : Token) (middle : List Token) :
    ∃ text, (Token.join (first :: (middle ++ [last]))).toList =
      first.text.toList ++ (text ++ last.text.toList) := by
  obtain ⟨text, same⟩ := joinAfter_concat first middle last
  exact ⟨text, by rw [Token.join, String.toList_append, same]⟩

/-- Several tokens are decoded as one literal if the first and the last are raw literals, and never
otherwise. -/
theorem unquote_join_eq_ok (starts : first.Spelled) (ends : last.Spelled) {value : Text} :
    unquote (Token.join (first :: (middle ++ [last]))) = .ok value ↔
      first.quote? = some backquote ∧ last.quote? = some backquote ∧
        value = .plain (between (Token.join (first :: (middle ++ [last])))) := by
  obtain ⟨text, same⟩ := toList_join_concat first last middle
  rw [unquote_eq_ok, between, same, (unquoteList_append starts ends text).1]
  refine and_congr_right fun _ => and_congr_right fun _ => ?_
  rw [← Text.points_inj, Text.points_plain, String.toList_ofList]

/-- The escape that has no number is that of the first of several tokens, and the last of them ends
with the same quote. -/
theorem unquote_join_eq_escapeTooLarge (starts : first.Spelled) (ends : last.Spelled) :
    unquote (Token.join (first :: (middle ++ [last]))) = .error .escapeTooLarge ↔
      first.quote? = last.quote? ∧ unquote first.text = .error .escapeTooLarge := by
  obtain ⟨text, same⟩ := toList_join_concat first last middle
  rw [unquote_eq_error, unquote_eq_error, same, (unquoteList_append starts ends text).2]

end

/-- A single token that is decoded is a literal. -/
theorem kind_of_unquote {token : Token} (spelled : token.Spelled) {value : Text}
    (decoded : unquote token.text = .ok value) : token.kind = .string ∨ token.kind = .rune := by
  rcases Decidable.em (token.kind = .string ∨ token.kind = .rune) with literal | other
  · exact literal
  · rw [Token.Spelled, Token.quote?, if_neg other] at spelled
    have fails := unquoteList_of_bare spelled []
    rw [List.append_nil] at fails
    nomatch (unquote_eq_ok.mp decoded).symm.trans fails

end GoApiDoc.Go
