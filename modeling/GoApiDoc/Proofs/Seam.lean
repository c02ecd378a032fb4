/-
This file cuts a source behind a line break. No lexeme but the line break itself goes over one that
is not enclosed, so a source that is cut into lexemes and ends with a line break is cut the same way
whatever follows it, and what follows is cut as if nothing stood before it, on later lines.
Words, numbers and operators go over neither a line break nor a space nor a closing bracket, so what
is said of their lengths is said of all three.

The same holds of the layout. At a line break nothing is pending: a statement that could end there
has been ended, and the last token lies on an earlier line. Two line breaks keep the comments on
both sides apart as well, because a group of comments does not go over an empty line.
-/

import GoApiDoc.Proofs.Lexing

namespace GoApiDoc.Go

open Text

/-! ### Lengths -/

/-- Characters that no word, number or operator of more than one character holds. -/
def separators : List Char :=
  ['\n', ' ', ']', '\x7d']

/-- A length that ends at a separator as it ends with the text. -/
structure Stops (separator : Char) (length : List Char → Nat) : Prop where
  le_length : ∀ text, length text ≤ text.length
  stop : ∀ text rest, length (text ++ separator :: rest) = length text

/-- The length of one stretch and of another one behind it. -/
def lengthThen (first second : List Char → Nat) (text : List Char) : Nat :=
  first text + second (text.drop (first text))

section Separator

variable {separator : Char}

theorem Stops.then {first second : List Char → Nat} (firstStops : Stops separator first)
    (secondStops : Stops separator second) : Stops separator (lengthThen first second) where
  le_length text := by
    have firstLe := firstStops.le_length text
    have secondLe := secondStops.le_length (text.drop (first text))
    rw [List.length_drop] at secondLe
    unfold lengthThen
    omega
  stop text rest := by
    unfold lengthThen
    rw [firstStops.stop, List.drop_append_of_le_length (firstStops.le_length text),
      secondStops.stop]

theorem stops_runLength {inClass : Char → Bool} (outside : inClass separator = false) :
    Stops separator (runLength inClass) where
  le_length text := (List.takeWhile_prefix inClass).length_le
  stop text rest := by
    induction text with
    | nil => simp [runLength, outside]
    | cons char text inductionHypothesis =>
      unfold runLength at inductionHypothesis ⊢
      rw [List.cons_append, List.takeWhile_cons, List.takeWhile_cons]
      split
      · rw [List.length_cons, List.length_cons, inductionHypothesis]
      · rfl

variable (separates : separator ∈ separators)

include separates

theorem outside_of_separators {inClass : Char → Bool}
    (outside : separators.any inClass = false) : inClass separator = false :=
  eq_false_of_ne_true (List.any_eq_false.mp outside separator separates)

theorem separator_ne {char : Char} (other : char ∉ separators) : separator ≠ char := by
  rintro rfl
  exact other separates

theorem separator_notMem {chars : List Char} (others : chars.any separators.contains = false) :
    separator ∉ chars :=
  fun member => List.any_eq_false.mp others separator member (List.contains_iff_mem.mpr separates)

theorem stops_fractionLength {isPart : Char → Bool} (outside : isPart separator = false) :
    Stops separator (fractionLength isPart) where
  le_length text := by
    unfold fractionLength
    split
    · next rest => exact Nat.succ_le_succ ((stops_runLength outside).le_length rest)
    · exact Nat.zero_le _
  stop text rest := by
    cases text with
    | nil => simp [fractionLength, separator_ne separates (show '.' ∉ separators by decide)]
    | cons char text =>
      by_cases point : char = '.'
      · subst point
        exact congrArg (· + 1) ((stops_runLength outside).stop text rest)
      · simp [fractionLength, point]

theorem stops_imaginaryLength : Stops separator imaginaryLength where
  le_length text := by
    unfold imaginaryLength
    split
    · exact Nat.succ_le_succ (Nat.zero_le _)
    · exact Nat.zero_le _
  stop text rest := by
    cases text with
    | nil => simp [imaginaryLength, separator_ne separates (show 'i' ∉ separators by decide)]
    | cons char text =>
      by_cases mark : char = 'i'
      · subst mark
        rfl
      · simp [imaginaryLength, mark]

theorem stops_decimalDigits : Stops separator (runLength isDecimalPart) :=
  stops_runLength (outside_of_separators separates (by decide))

theorem stops_exponentLength {isMark : Char → Bool} (outside : isMark separator = false) :
    Stops separator (exponentLength isMark) := by
  have digits := stops_decimalDigits separates
  constructor
  · intro text
    match text with
    | [] => exact Nat.zero_le _
    | [mark] => simp [exponentLength]
    | mark :: sign :: tail =>
      have tailLe := digits.le_length tail
      have restLe := digits.le_length (sign :: tail)
      simp only [exponentLength, List.length_cons] at restLe ⊢
      split
      · split
        · split <;> omega
        · split <;> omega
      · exact Nat.zero_le _
  · intro text rest
    match text with
    | [] => simp [exponentLength, outside]
    | [mark] =>
      have none : runLength isDecimalPart (separator :: rest) = 0 := digits.stop [] rest
      simp [exponentLength, none, separator_ne separates (show '+' ∉ separators by decide),
        separator_ne separates (show '-' ∉ separators by decide)]
    | mark :: sign :: tail =>
      have tailStop := digits.stop tail rest
      have restStop := digits.stop (sign :: tail) rest
      simp only [List.cons_append] at restStop
      simp only [exponentLength, List.cons_append, tailStop, restStop]

theorem stops_suffixLength {isMark : Char → Bool} (outside : isMark separator = false) :
    Stops separator (suffixLength isMark) :=
  (stops_exponentLength separates outside).then (stops_imaginaryLength separates)

theorem stops_decimalSuffix : Stops separator (suffixLength isDecimalMark) :=
  stops_suffixLength separates (outside_of_separators separates (by decide))

theorem stops_hexLength : Stops separator hexLength := by
  have part : isHexPart separator = false := outside_of_separators separates (by decide)
  have mark : isHexMark separator = false := outside_of_separators separates (by decide)
  exact ((stops_runLength part).then (stops_fractionLength separates part)).then
    (stops_suffixLength separates mark)

theorem stops_decimalLength : Stops separator decimalLength := by
  have part : isDecimalPart separator = false := outside_of_separators separates (by decide)
  exact ((stops_runLength part).then (stops_fractionLength separates part)).then
    (stops_decimalSuffix separates)

theorem numberLength_stop (first : Char) (text rest : List Char) :
    numberLength first (text ++ separator :: rest) = numberLength first text := by
  have digits := stops_decimalDigits separates
  have decimal := stops_decimalLength separates
  unfold numberLength
  cases text with
  | nil =>
    have whole : decimalLength (separator :: rest) = decimalLength [] := decimal.stop [] rest
    have none : decimalLength [] = 0 := rfl
    have digit : isAsciiDigit separator = false := outside_of_separators separates (by decide)
    have unmarked : separator ∉ ['x', 'X', 'o', 'O', 'b', 'B'] :=
      separator_notMem separates (by decide)
    simp only [List.mem_cons, List.not_mem_nil, or_false, not_or] at unmarked
    simp [whole, none, digit, unmarked]
  | cons char text =>
    have start := decimal.stop (char :: text) rest
    have whole := digits.stop (char :: text) rest
    rw [List.cons_append] at start whole
    simp only [List.cons_append, start, whole, (stops_hexLength separates).stop, digits.stop]
    have behind : ∀ text, (text ++ separator :: rest).drop (runLength isDecimalPart text) =
        text.drop (runLength isDecimalPart text) ++ separator :: rest :=
      fun text => List.drop_append_of_le_length (digits.le_length text)
    have behindPoint := behind (char :: text)
    rw [List.cons_append] at behindPoint
    rw [behindPoint, behind text, (stops_decimalSuffix separates).stop,
      (stops_imaginaryLength separates).stop]

theorem operatorLength_stop (first : Char) (text rest : List Char) :
    operatorLength first (text ++ separator :: rest) = operatorLength first text := by
  have other : separator ∉ ['.', '=', '-', '<', '>', '&', '^', '|', '+'] :=
    separator_notMem separates (by decide)
  simp only [List.mem_cons, List.not_mem_nil, or_false, not_or] at other
  obtain ⟨point, assign, minus, less, greater, both, power, either, plus⟩ := other
  match text with
  | [] => simp [operatorLength, assign, minus, less, greater, both, power, either, plus, point]
  | [char] => simp [operatorLength, assign, point]
  | char :: second :: text => rfl

end Separator

theorem numberLength_le {first : Char} {text : List Char} {length : Nat}
    (found : numberLength first text = some length) : length ≤ text.length := by
  have separates : '\n' ∈ separators := by decide
  have digits := stops_decimalDigits separates
  have decimal := (stops_decimalLength separates).le_length text
  unfold numberLength at found
  split at found
  · split at found
    · simp at found
    · next digit tail =>
      split at found
      · obtain rfl := Option.some.inj found
        exact (digits.then (stops_decimalSuffix separates)).le_length (digit :: tail)
      · simp at found
  · split at found
    · simp at found
    · split at found
      · split at found
        · obtain rfl := Option.some.inj found
          exact Nat.le_refl 0
        · next mark tail =>
          split at found
          · obtain rfl := Option.some.inj found
            exact Nat.succ_le_succ ((stops_hexLength separates).le_length tail)
          · split at found
            · simp only at found
              split at found
              · obtain rfl := Option.some.inj found
                exact decimal
              · obtain rfl := Option.some.inj found
                have suffix := (digits.then (stops_imaginaryLength separates)).le_length tail
                simp only [lengthThen] at suffix
                rw [List.length_cons]
                omega
            · obtain rfl := Option.some.inj found
              exact decimal
      · obtain rfl := Option.some.inj found
        exact decimal

theorem operatorLength_le {first : Char} {text : List Char} {length : Nat}
    (found : operatorLength first text = some length) : length ≤ text.length := by
  unfold operatorLength at found
  match text with
  | [] => grind
  | [char] => grind
  | char :: second :: text => grind

/-! ### Enclosed stretches -/

/-- A length that ends with a mark which is no line break, whatever stands behind the mark. -/
structure Closes (length : List Char → Option Nat) : Prop where
  append : ∀ {text : List Char} {found : Nat} (rest : List Char), length text = some found →
    length (text ++ rest) = some found ∧ found ≤ text.length
  ne : ∀ text rest, length (text ++ '\n' :: rest) ≠ some (text.length + 1)

theorem quotedLength_ne_zero (quote : Char) (text : List Char) :
    quotedLength quote text ≠ some 0 := by
  fun_cases quotedLength quote text <;> simp

theorem rawLength_ne_zero (text : List Char) : rawLength text ≠ some 0 := by
  fun_cases rawLength text <;> simp

theorem blockLength_ne_zero (text : List Char) : blockLength text ≠ some 0 := by
  fun_cases blockLength text <;> simp

theorem closes_quotedLength {quote : Char} (mark : quote ≠ '\n') : Closes (quotedLength quote) := by
  constructor
  · intro text found rest closed
    fun_induction quotedLength quote text generalizing found with
    | case1 => simp at closed
    | case2 text =>
      obtain rfl := Option.some.inj closed
      rw [List.cons_append, quotedLength.eq_def]
      simp
    | case3 => simp at closed
    | case4 => simp at closed
    | case5 char text other newline inductionHypothesis =>
      obtain ⟨tail, inner, rfl⟩ := Option.map_eq_some_iff.mp closed
      obtain ⟨same, le⟩ := inductionHypothesis inner
      rw [List.cons_append, quotedLength.eq_def]
      simp [other, same, le]
    | case6 char text other newline escape inductionHypothesis =>
      obtain ⟨tail, inner, rfl⟩ := Option.map_eq_some_iff.mp closed
      obtain ⟨same, le⟩ := inductionHypothesis inner
      rw [List.cons_append, quotedLength.eq_def]
      simp [other, newline, escape, same, le]
  · intro text rest closed
    fun_induction quotedLength quote text with
    | case1 =>
      rw [List.nil_append, quotedLength.eq_def] at closed
      simp [mark.symm] at closed
    | case2 text =>
      rw [List.cons_append, quotedLength.eq_def] at closed
      simp at closed
    | case3 text other =>
      rw [List.cons_append, quotedLength.eq_def] at closed
      simp [other] at closed
    | case4 other newline =>
      rw [List.cons_append, quotedLength.eq_def] at closed
      simp only [List.nil_append, if_neg other, if_neg newline, if_true] at closed
      obtain ⟨tail, inner, length⟩ := Option.map_eq_some_iff.mp closed
      obtain rfl : tail = 0 := by simpa using length
      exact quotedLength_ne_zero quote rest inner
    | case5 char text other newline inductionHypothesis =>
      rw [List.cons_append, quotedLength.eq_def] at closed
      simp only [List.cons_append, if_neg other, if_neg newline, if_true] at closed
      obtain ⟨tail, inner, length⟩ := Option.map_eq_some_iff.mp closed
      refine inductionHypothesis (inner.trans (congrArg some ?_))
      simp only [List.length_cons] at length
      omega
    | case6 char text other newline escape inductionHypothesis =>
      rw [List.cons_append, quotedLength.eq_def] at closed
      simp only [if_neg other, if_neg newline, if_neg escape] at closed
      obtain ⟨tail, inner, length⟩ := Option.map_eq_some_iff.mp closed
      refine inductionHypothesis (inner.trans (congrArg some ?_))
      simp only [List.length_cons] at length
      omega

theorem closes_rawLength : Closes rawLength := by
  constructor
  · intro text found rest closed
    fun_induction rawLength text generalizing found with
    | case1 => simp at closed
    | case2 text =>
      obtain rfl := Option.some.inj closed
      simp [rawLength]
    | case3 char text other inductionHypothesis =>
      obtain ⟨tail, inner, rfl⟩ := Option.map_eq_some_iff.mp closed
      obtain ⟨same, le⟩ := inductionHypothesis inner
      simp [rawLength, other, same, le]
  · intro text rest closed
    fun_induction rawLength text with
    | case1 =>
      rw [List.nil_append, rawLength, if_neg (by decide)] at closed
      obtain ⟨tail, inner, length⟩ := Option.map_eq_some_iff.mp closed
      obtain rfl : tail = 0 := Nat.succ.inj length
      exact rawLength_ne_zero rest inner
    | case2 text => simp [rawLength] at closed
    | case3 char text other inductionHypothesis =>
      rw [List.cons_append, rawLength, if_neg other] at closed
      obtain ⟨tail, inner, length⟩ := Option.map_eq_some_iff.mp closed
      exact inductionHypothesis (inner.trans (congrArg some (Nat.succ.inj length)))

theorem closes_blockLength : Closes blockLength := by
  constructor
  · intro text found rest closed
    fun_induction blockLength text generalizing found with
    | case1 text =>
      obtain rfl := Option.some.inj closed
      simp [blockLength]
    | case2 char text unclosed inductionHypothesis =>
      obtain ⟨tail, inner, rfl⟩ := Option.map_eq_some_iff.mp closed
      obtain ⟨same, le⟩ := inductionHypothesis inner
      have goesOn : ∀ tail, char = '*' → text ++ rest = '/' :: tail → False := by
        intro behind star slash
        cases text with
        | nil => simp [blockLength] at inner
        | cons second text =>
          rw [List.cons_append, List.cons.injEq] at slash
          exact unclosed text star (by rw [slash.1])
      rw [List.cons_append, blockLength.eq_2 _ _ goesOn, same]
      exact ⟨rfl, Nat.succ_le_succ le⟩
    | case3 => simp at closed
  · intro text rest closed
    fun_induction blockLength text with
    | case1 text => simp [blockLength] at closed
    | case2 char text unclosed inductionHypothesis =>
      have goesOn : ∀ tail, char = '*' → text ++ '\n' :: rest = '/' :: tail → False := by
        intro behind star slash
        cases text with
        | nil => simp at slash
        | cons second text =>
          rw [List.cons_append, List.cons.injEq] at slash
          exact unclosed text star (by rw [slash.1])
      rw [List.cons_append, blockLength.eq_2 _ _ goesOn] at closed
      obtain ⟨tail, inner, length⟩ := Option.map_eq_some_iff.mp closed
      exact inductionHypothesis (inner.trans (congrArg some (Nat.succ.inj length)))
    | case3 =>
      rw [List.nil_append, blockLength.eq_2 _ _ (by simp)] at closed
      obtain ⟨tail, inner, length⟩ := Option.map_eq_some_iff.mp closed
      obtain rfl : tail = 0 := Nat.succ.inj length
      exact blockLength_ne_zero rest inner

/-! ### Lexemes -/

theorem nextSymbol_stop {separator : Char} (separates : separator ∈ separators) (first : Char)
    (text rest : List Char) :
    nextSymbol first (text ++ separator :: rest) = nextSymbol first text := by
  have word : Stops separator (runLength isWord) :=
    stops_runLength (outside_of_separators separates (by decide))
  unfold nextSymbol
  simp only [word.stop, numberLength_stop separates, operatorLength_stop separates,
    List.take_append_of_le_length (word.le_length text)]

/-- No symbol goes over the end of the text. -/
theorem nextSymbol_le {first : Char} {text : List Char} {shape : Shape} {extra : Nat}
    (cut : nextSymbol first text = .ok (shape, extra)) : extra ≤ text.length := by
  cases symbolForm_of_nextSymbol cut with
  | word => exact (stops_runLength (show isWord '\n' = false by decide)).le_length text
  | number found => exact numberLength_le found
  | operator found => exact operatorLength_le found

theorem stops_line : Stops '\n' (runLength fun char => char ≠ '\n') :=
  stops_runLength (by decide)

theorem nextLexeme_le {first : Char} {text : List Char} {shape : Shape} {extra : Nat}
    (cut : nextLexeme first text = .ok (shape, extra)) : extra ≤ text.length := by
  cases nextLexeme_eq_ok.mp cut with
  | newline => exact Nat.zero_le _
  | blank => exact Nat.zero_le _
  | lineComment => exact stops_line.le_length text
  | blockComment slash second closed =>
    obtain ⟨tail, rfl⟩ := List.head?_eq_some_iff.mp second
    exact Nat.succ_le_succ (closes_blockLength.append [] closed).2
  | quoted mark closed =>
    have other : first ≠ '\n' := by rcases mark with rfl | rfl <;> decide
    exact ((closes_quotedLength other).append [] closed).2
  | raw mark closed => exact (closes_rawLength.append [] closed).2
  | symbol noBreak noGap noLine noBlock noQuote notRaw cut => exact nextSymbol_le cut

/-- A lexeme is cut off in front of more text as at the end, if line comments, words, numbers and
operators are, and no comment starts where none started. -/
theorem nextLexeme_append {first : Char} {text more : List Char} {shape : Shape} {extra : Nat}
    (second : ∀ char ∈ ['/', '*'], (text ++ more).head? = some char ↔ text.head? = some char)
    (line : shape = .lineComment →
      runLength (· ≠ '\n') (text ++ more) = runLength (· ≠ '\n') text)
    (symbol : nextSymbol first (text ++ more) = nextSymbol first text)
    (cut : nextLexeme first text = .ok (shape, extra)) :
    nextLexeme first (text ++ more) = .ok (shape, extra) := by
  simp only [List.forall_mem_cons, List.not_mem_nil, false_implies, forall_const, and_true]
    at second
  rw [nextLexeme_eq_ok] at cut ⊢
  cases cut with
  | newline breaks => exact .newline breaks
  | blank gap => exact .blank gap
  | lineComment slash slashes => exact line rfl ▸ .lineComment slash (second.1.mpr slashes)
  | blockComment slash star closed =>
    refine .blockComment slash (second.2.mpr star) ?_
    obtain ⟨tail, rfl⟩ := List.head?_eq_some_iff.mp star
    exact (closes_blockLength.append more closed).1
  | quoted mark closed =>
    have other : first ≠ '\n' := by rcases mark with rfl | rfl <;> decide
    exact .quoted mark ((closes_quotedLength other).append more closed).1
  | raw mark closed => exact .raw mark (closes_rawLength.append more closed).1
  | symbol noBreak noGap noLine noBlock noQuote notRaw cut =>
    refine .symbol noBreak noGap ?_ ?_ noQuote notRaw (symbol.trans cut)
    · rwa [second.1]
    · rwa [second.2]

/-- A lexeme behind whose first character a line break stands does not end with the line break. -/
theorem nextLexeme_ne {first : Char} {text rest : List Char} {shape : Shape} :
    nextLexeme first (text ++ '\n' :: rest) ≠ .ok (shape, text.length + 1) := by
  rw [Ne, nextLexeme_eq_ok]
  generalize ends : text.length + 1 = extra
  intro form
  cases form with
  | newline => cases ends
  | blank => cases ends
  | lineComment =>
    have le := stops_line.le_length text
    rw [stops_line.stop] at ends
    omega
  | blockComment slash second closed =>
    cases text with
    | nil => simp at second
    | cons star tail =>
      obtain rfl := Nat.succ.inj ends
      exact closes_blockLength.ne tail rest closed
  | quoted mark closed =>
    have other : first ≠ '\n' := by rcases mark with rfl | rfl <;> decide
    exact (closes_quotedLength other).ne text rest (ends ▸ closed)
  | raw mark closed => exact closes_rawLength.ne text rest (ends ▸ closed)
  | symbol noBreak noGap noLine noBlock noQuote notRaw cut =>
    rw [nextSymbol_stop (by decide)] at cut
    have le := nextSymbol_le cut
    omega

/-- The first lexeme of a source that goes on up to a line break is the same whatever stands behind
the line break, and it ends before it. -/
theorem nextLexeme_stop {first : Char} {text : List Char} {shape : Shape} {extra : Nat}
    (cut : nextLexeme first (text ++ ['\n']) = .ok (shape, extra)) :
    extra ≤ text.length ∧
      ∀ rest, nextLexeme first (text ++ '\n' :: rest) = .ok (shape, extra) := by
  constructor
  · have le := nextLexeme_le cut
    rw [List.length_append, List.length_singleton] at le
    have other : extra ≠ text.length + 1 := by
      rintro rfl
      exact nextLexeme_ne cut
    omega
  · intro rest
    have behind : text ++ '\n' :: rest = text ++ ['\n'] ++ rest := by simp
    have second : ∀ char ∈ ['/', '*'],
        (text ++ ['\n'] ++ rest).head? = some char ↔ (text ++ ['\n']).head? = some char := by
      cases text <;> simp
    rw [behind]
    refine nextLexeme_append second (fun _ => ?_) ?_ cut
    · rw [← behind, stops_line.stop, stops_line.stop]
    · rw [← behind, nextSymbol_stop (by decide), nextSymbol_stop (by decide)]

/-- A lexeme at the end of a source is the same in front of a separator, unless it is a line
comment, which takes along all that follows on its line. -/
theorem nextLexeme_separator {separator first : Char} {text : List Char} {shape : Shape}
    {extra : Nat} (separates : separator ∈ separators) (ends : shape ≠ .lineComment)
    (cut : nextLexeme first text = .ok (shape, extra)) (rest : List Char) :
    nextLexeme first (text ++ separator :: rest) = .ok (shape, extra) := by
  have second : ∀ char ∈ ['/', '*'],
      (text ++ separator :: rest).head? = some char ↔ text.head? = some char := by
    cases text with
    | nil =>
      have slash := separator_ne separates (show '/' ∉ separators by decide)
      have star := separator_ne separates (show '*' ∉ separators by decide)
      simp [slash, star]
    | cons char text => simp
  exact nextLexeme_append second (fun line => absurd line ends) (nextSymbol_stop separates ..) cut

/-- A token that is cut off where nothing follows, in front of a separator. -/
theorem Lays.separated {ends : Bool} {line : Nat} {separator first : Char} {body rest : List Char}
    {kind : TokenKind} {tokens : List Token} (separates : separator ∈ separators)
    (cut : nextLexeme first body = .ok (.token kind, body.length))
    (laid : ∀ ends, Lays ends (line + Lexeme.lineBreaks ⟨.token kind, first :: body, line⟩)
      (separator :: rest) tokens) :
    Lays ends line (first :: (body ++ separator :: rest))
      (⟨kind, String.ofList (first :: body), line⟩ :: tokens) := by
  have symbol : Shape.token kind ≠ .lineComment := nofun
  exact Lays.token (nextLexeme_separator separates symbol cut rest) (laid _)

/-- By how many lines lexemes together move the line count on. -/
def lineBreaks : List Lexeme → Nat
  | [] => 0
  | lexeme :: rest => lexeme.lineBreaks + lineBreaks rest

@[simp] theorem lineBreaks_nil : lineBreaks [] = 0 :=
  rfl

@[simp] theorem lineBreaks_cons (lexeme : Lexeme) (rest : List Lexeme) :
    lineBreaks (lexeme :: rest) = lexeme.lineBreaks + lineBreaks rest :=
  rfl

@[simp] theorem lineBreaks_append (first second : List Lexeme) :
    lineBreaks (first ++ second) = lineBreaks first + lineBreaks second := by
  induction first with
  | nil => simp
  | cons lexeme rest inductionHypothesis => simp [inductionHypothesis, Nat.add_assoc]

/-- A source that ends with a line break is cut into the same lexemes whatever follows, and what
follows is cut from its own start. -/
theorem lexemesFrom_append {line : Nat} {text : List Char} {found : List Lexeme}
    (cut : lexemesFrom line (text ++ ['\n']) = .ok found) (rest : List Char) :
    lexemesFrom line (text ++ '\n' :: rest) =
      (lexemesFrom (line + lineBreaks found) rest).map (found ++ ·) := by
  rw [lexemesFrom_eq_ok] at cut
  generalize whole : text ++ ['\n'] = source at cut
  induction cut generalizing text with
  | ended => exact absurd whole (List.append_ne_nil_of_right_ne_nil text (List.cons_ne_nil _ _))
  | @lexeme line extra first tail shape others next behind inductionHypothesis =>
    cases text with
    | nil =>
      obtain ⟨rfl, rfl⟩ := List.cons.inj whole
      obtain ⟨rfl, rfl⟩ := Prod.mk.inj (Except.ok.inj next)
      cases behind
      have step : nextLexeme '\n' rest = .ok (.newline, 0) := rfl
      rw [List.nil_append, lexemesFrom_cons step]
      rfl
    | cons head text =>
      rw [List.cons_append] at whole
      obtain ⟨rfl, rfl⟩ := List.cons.inj whole
      obtain ⟨le, stays⟩ := nextLexeme_stop next
      have cutRest := inductionHypothesis (List.drop_append_of_le_length le).symm
      rw [List.take_append_of_le_length le] at cutRest ⊢
      rw [List.cons_append, lexemesFrom_cons (stays rest), List.take_append_of_le_length le,
        List.drop_append_of_le_length le, cutRest, lineBreaks_cons, Nat.add_assoc]
      cases lexemesFrom _ rest <;> rfl

/-- A source without line comments is cut in front of a separator as by itself, and what starts with
the separator is cut from its own start. -/
theorem lexemesFrom_separator {line : Nat} {separator : Char} {text : List Char}
    {found : List Lexeme} (separates : separator ∈ separators)
    (cut : lexemesFrom line text = .ok found) (ends : ∀ lexeme ∈ found, lexeme.shape ≠ .lineComment)
    (rest : List Char) :
    lexemesFrom line (text ++ separator :: rest) =
      (lexemesFrom (line + lineBreaks found) (separator :: rest)).map (found ++ ·) := by
  rw [lexemesFrom_eq_ok] at cut
  induction cut with
  | @ended line =>
    rw [List.nil_append, lineBreaks_nil, Nat.add_zero]
    cases lexemesFrom line (separator :: rest) <;> rfl
  | lexeme next _ inductionHypothesis =>
    obtain ⟨firstEnds, othersEnd⟩ := List.forall_mem_cons.mp ends
    have le := nextLexeme_le next
    have stays := nextLexeme_separator separates firstEnds next rest
    rw [List.cons_append, lexemesFrom_cons stays, List.take_append_of_le_length le,
      List.drop_append_of_le_length le, inductionHypothesis othersEnd, lineBreaks_cons,
      Nat.add_assoc]
    cases lexemesFrom _ (separator :: rest) <;> rfl

/-- A line break at the end of a source is a lexeme of its own. -/
theorem lexemesFrom_break {line : Nat} {text : List Char} {found : List Lexeme}
    (cut : lexemesFrom line (text ++ ['\n']) = .ok found) :
    ∃ before last, found = before ++ [⟨.newline, ['\n'], last⟩] := by
  rw [lexemesFrom_eq_ok] at cut
  generalize whole : text ++ ['\n'] = source at cut
  induction cut generalizing text with
  | ended => exact absurd whole (List.append_ne_nil_of_right_ne_nil text (List.cons_ne_nil _ _))
  | @lexeme line extra first tail shape others next behind inductionHypothesis =>
    cases text with
    | nil =>
      obtain ⟨rfl, rfl⟩ := List.cons.inj whole
      obtain ⟨rfl, rfl⟩ := Prod.mk.inj (Except.ok.inj next)
      cases behind
      exact ⟨[], line, rfl⟩
    | cons head text =>
      rw [List.cons_append] at whole
      obtain ⟨rfl, rfl⟩ := List.cons.inj whole
      have le := (nextLexeme_stop next).1
      obtain ⟨before, last, rfl⟩ := inductionHypothesis (List.drop_append_of_le_length le).symm
      exact ⟨_ :: before, last, rfl⟩

/-- Two line breaks at the end of a source are lexemes of their own. -/
theorem lexemesFrom_two_breaks {line : Nat} {text : List Char} {found : List Lexeme}
    (cut : lexemesFrom line (text ++ ['\n', '\n']) = .ok found) :
    ∃ before last, found =
      before ++ [⟨.newline, ['\n'], last⟩, ⟨.newline, ['\n'], last + 1⟩] := by
  rw [lexemesFrom_eq_ok] at cut
  generalize whole : text ++ ['\n', '\n'] = source at cut
  induction cut generalizing text with
  | ended => exact absurd whole (List.append_ne_nil_of_right_ne_nil text (List.cons_ne_nil _ _))
  | @lexeme line extra first tail shape others next behind inductionHypothesis =>
    cases text with
    | nil =>
      obtain ⟨rfl, rfl⟩ := List.cons.inj whole
      obtain ⟨rfl, rfl⟩ := Prod.mk.inj (Except.ok.inj next)
      obtain _ | ⟨next, behind⟩ := behind
      obtain ⟨rfl, rfl⟩ := Prod.mk.inj (Except.ok.inj next)
      cases behind
      exact ⟨[], line, rfl⟩
    | cons head text =>
      rw [List.cons_append] at whole
      obtain ⟨rfl, rfl⟩ := List.cons.inj whole
      have le : extra ≤ text.length := by
        have ends : text ++ ['\n', '\n'] = text ++ ['\n'] ++ ['\n'] := by simp
        have le := (nextLexeme_stop (ends ▸ next)).1
        rw [List.length_append, List.length_singleton] at le
        have other : extra ≠ text.length + 1 := by
          rintro rfl
          exact nextLexeme_ne next
        omega
      obtain ⟨before, last, rfl⟩ := inductionHypothesis (List.drop_append_of_le_length le).symm
      exact ⟨_ :: before, last, rfl⟩

/-! ### Lines -/

/-- The lexemes stand one behind the other, from `line` on. -/
def Follow (line : Nat) : List Lexeme → Prop
  | [] => True
  | lexeme :: rest => lexeme.line = line ∧ Follow (line + lexeme.lineBreaks) rest

/-- Lexemes follow one another if each part does, the second from where the first ends. -/
theorem follow_append {line : Nat} {first second : List Lexeme} :
    Follow line (first ++ second) ↔
      Follow line first ∧ Follow (line + lineBreaks first) second := by
  induction first generalizing line with
  | nil => simp [Follow]
  | cons lexeme rest inductionHypothesis =>
    simp only [List.cons_append, Follow, inductionHypothesis, lineBreaks_cons, Nat.add_assoc,
      and_assoc]

/-- The lexemes of a source follow one another. -/
theorem follow_of_lexemesFrom {line : Nat} {source : List Char} {found : List Lexeme}
    (cut : lexemesFrom line source = .ok found) : Follow line found := by
  rw [lexemesFrom_eq_ok] at cut
  induction cut with
  | ended => trivial
  | lexeme next _ follow => exact ⟨rfl, follow⟩

/-! ### Layouts -/

/-- The tokens and comments of two stretches of source, one behind the other. -/
def Layout.append (first second : Layout) : Layout :=
  ⟨first.tokens ++ second.tokens, first.comments ++ second.comments⟩

namespace Layout

theorem endingStatement_append (ends : Bool) (line : Nat) (first second : Layout) :
    (endingStatement ends line first).append second =
      endingStatement ends line (first.append second) := by
  cases ends with
  | true => rfl
  | false => rfl

@[simp] theorem comments_endingStatement (ends : Bool) (line : Nat) (layout : Layout) :
    (endingStatement ends line layout).comments = layout.comments := by
  cases ends with
  | true => rfl
  | false => rfl

/-- Which line the last token lies on does not matter for what stands on later lines. -/
theorem arrange_tokenLine {ends : Bool} {tokenLine other line : Nat} {lexemes : List Lexeme}
    (follow : Follow line lexemes) (before : tokenLine < line) (otherBefore : other < line) :
    arrange ends tokenLine line lexemes = arrange ends other line lexemes := by
  induction lexemes generalizing ends line with
  | nil => rfl
  | cons lexeme rest inductionHypothesis =>
    obtain ⟨rfl, followRest⟩ := follow
    have tail : ∀ ends : Bool, arrange ends tokenLine (lexeme.line + lexeme.lineBreaks) rest =
        arrange ends other (lexeme.line + lexeme.lineBreaks) rest := by
      intro ends
      exact inductionHypothesis followRest (by omega) (by omega)
    have apart : (tokenLine != lexeme.line) = (other != lexeme.line) := by
      rw [bne_iff_ne.mpr (by omega), bne_iff_ne.mpr (by omega)]
    rw [arrange, arrange]
    simp only [tail, apart]

/-- What stands in front of a line break is arranged by itself. Behind the line break no statement
is open, and the last token lies on an earlier line. -/
theorem arrange_append {ends : Bool} {tokenLine line last : Nat} {before : List Lexeme}
    (follow : Follow line (before ++ [⟨.newline, ['\n'], last⟩])) (le : tokenLine ≤ line) :
    ∃ reached < line + lineBreaks (before ++ [⟨.newline, ['\n'], last⟩]), ∀ after,
      arrange ends tokenLine line (before ++ ⟨.newline, ['\n'], last⟩ :: after) =
        (arrange ends tokenLine line (before ++ [⟨.newline, ['\n'], last⟩])).append
          (arrange false reached
            (line + lineBreaks (before ++ [⟨.newline, ['\n'], last⟩])) after) := by
  induction before generalizing ends tokenLine line with
  | nil =>
    obtain ⟨rfl, -⟩ := follow
    refine ⟨tokenLine, Nat.lt_succ_of_le le, fun after => ?_⟩
    have single : ∀ after, arrange ends tokenLine last (⟨.newline, ['\n'], last⟩ :: after) =
        endingStatement ends last (arrange false tokenLine (last + 1) after) := fun after => rfl
    rw [List.nil_append, List.nil_append, single, single, endingStatement_append]
    rfl
  | cons lexeme rest inductionHypothesis =>
    obtain ⟨rfl, followRest⟩ := follow
    have tail : ∀ (ends : Bool) (reached : Nat), reached ≤ lexeme.line + lexeme.lineBreaks → _ :=
      fun ends reached le => @inductionHypothesis ends reached _ followRest le
    rw [List.cons_append, lineBreaks_cons, ← Nat.add_assoc]
    cases shape : lexeme.shape with
    | blank =>
      obtain ⟨reached, less, goesOn⟩ := tail ends tokenLine (Nat.le_add_right_of_le le)
      refine ⟨reached, less, fun after => ?_⟩
      rw [List.cons_append, arrange, arrange]
      simp only [shape]
      rw [goesOn after]
    | newline =>
      obtain ⟨reached, less, goesOn⟩ := tail false tokenLine (Nat.le_add_right_of_le le)
      refine ⟨reached, less, fun after => ?_⟩
      rw [List.cons_append, arrange, arrange]
      simp only [shape]
      rw [goesOn after, endingStatement_append]
    | lineComment =>
      obtain ⟨reached, less, goesOn⟩ := tail ends tokenLine (Nat.le_add_right_of_le le)
      refine ⟨reached, less, fun after => ?_⟩
      rw [List.cons_append, arrange, arrange]
      simp only [shape]
      rw [goesOn after]
      rfl
    | blockComment =>
      obtain ⟨reached, less, goesOn⟩ := tail (ends && !(lexeme.lineBreaks != 0)) tokenLine
        (Nat.le_add_right_of_le le)
      refine ⟨reached, less, fun after => ?_⟩
      rw [List.cons_append, arrange, arrange]
      simp only [shape]
      rw [goesOn after, ← endingStatement_append]
      rfl
    | token kind =>
      obtain ⟨reached, less, goesOn⟩ := tail
        (Token.endsStatement ⟨kind, String.ofList lexeme.text, lexeme.line⟩) _ (Nat.le_refl _)
      refine ⟨reached, less, fun after => ?_⟩
      rw [List.cons_append, arrange, arrange]
      simp only [shape]
      rw [goesOn after]
      rfl

/-- The tokens and comments lie on lines from the first of these to the last. -/
structure Within (first last : Nat) (layout : Layout) : Prop where
  tokens : ∀ token ∈ layout.tokens, first ≤ token.line ∧ token.line ≤ last
  comments : ∀ comment ∈ layout.comments,
    first ≤ comment.first ∧ comment.first ≤ comment.last ∧ comment.last ≤ last

namespace Within

variable {first last : Nat} {layout : Layout}

theorem earlier {line : Nat} (within : layout.Within line last) (le : first ≤ line) :
    layout.Within first last where
  tokens token member := (within.tokens token member).imp_left (Nat.le_trans le)
  comments comment member := (within.comments comment member).imp_left (Nat.le_trans le)

theorem withToken {token : Token} (within : layout.Within first last) (low : first ≤ token.line)
    (high : token.line ≤ last) : (layout.withToken token).Within first last where
  tokens := List.forall_mem_cons.mpr ⟨⟨low, high⟩, within.tokens⟩
  comments := within.comments

theorem withComment {comment : Comment} (within : layout.Within first last)
    (low : first ≤ comment.first) (span : comment.first ≤ comment.last)
    (high : comment.last ≤ last) : (layout.withComment comment).Within first last where
  tokens := within.tokens
  comments := List.forall_mem_cons.mpr ⟨⟨low, span, high⟩, within.comments⟩

theorem endingStatement {ends : Bool} {line : Nat} (within : layout.Within first last)
    (low : first ≤ line) (high : line ≤ last) :
    (layout.endingStatement ends line).Within first last := by
  cases ends with
  | false => exact within
  | true => exact within.withToken low high

end Within

/-- The lines of what is arranged lie between the first line and the last one. -/
theorem arrange_within {ends : Bool} {tokenLine line : Nat} {lexemes : List Lexeme}
    (follow : Follow line lexemes) :
    (arrange ends tokenLine line lexemes).Within line (line + lineBreaks lexemes) := by
  induction lexemes generalizing ends tokenLine line with
  | nil => exact Within.endingStatement ⟨nofun, nofun⟩ (Nat.le_refl _) (Nat.le_refl _)
  | cons lexeme rest inductionHypothesis =>
    obtain ⟨rfl, followRest⟩ := follow
    have tail : ∀ (ends : Bool) (reached : Nat),
        (arrange ends reached (lexeme.line + lexeme.lineBreaks) rest).Within lexeme.line
          (lexeme.line + lexeme.lineBreaks + lineBreaks rest) :=
      fun ends reached => (inductionHypothesis followRest).earlier (Nat.le_add_right _ _)
    have high : lexeme.line ≤ lexeme.line + lexeme.lineBreaks + lineBreaks rest := by omega
    rw [lineBreaks_cons, ← Nat.add_assoc, arrange]
    cases lexeme.shape with
    | blank => exact tail ends tokenLine
    | newline => exact (tail false tokenLine).endingStatement (Nat.le_refl _) high
    | lineComment =>
      exact (tail ends tokenLine).withComment (Nat.le_refl _) (Nat.le_refl _) high
    | blockComment =>
      refine Within.withComment ?_ (Nat.le_refl _) (Nat.le_add_right _ _) (Nat.le_add_right _ _)
      exact (tail _ tokenLine).endingStatement (Nat.le_refl _) high
    | token kind => exact (tail _ _).withToken (Nat.le_refl _) high

end Layout

end GoApiDoc.Go
