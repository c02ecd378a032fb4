/-
This file prints groups of constants and variables and shows that reading undoes printing. An
initialiser may be any run of tokens whose brackets are balanced and that has no comma and no
semicolon outside of its brackets, such as a call, a composite literal or a function literal. The
reader finds the end of an initialiser by its own count of open brackets, so such a run is one
initialiser, whatever it holds, and what ends it is the first comma, semicolon or closing
parenthesis behind it.

A token holds the fact that its spelling is cut off as one token where nothing follows. It is cut
off in the same way in front of a space, so a source of tokens with single spaces between them is
laid out as these tokens. They are on one line as long as no raw literal among them is longer than
that; nothing below depends on the lines but the line of the declaration, which is the first.
-/

import GoApiDoc.Proofs.Brackets
import GoApiDoc.Proofs.Seam
import GoApiDoc.Proofs.StructText

namespace GoApiDoc.Go

open Text

/-! ### Tokens with spaces between them -/

/-- The spelling of a token, which is cut off as this token. -/
structure SpelledToken where
  kind : TokenKind
  first : Char
  rest : List Char
  cut : nextLexeme first rest = .ok (.token kind, rest.length)

namespace SpelledToken

/-- The characters of a spelling as a text. -/
def text (spelling : SpelledToken) : String :=
  String.ofList (spelling.first :: spelling.rest)

/-- The token on a line. -/
def token (line : Nat) (spelling : SpelledToken) : Token :=
  ⟨spelling.kind, spelling.text, line⟩

/-- The number of line breaks that are counted in a spelling. -/
def breaks (spelling : SpelledToken) : Nat :=
  Lexeme.lineBreaks ⟨.token spelling.kind, spelling.first :: spelling.rest, 0⟩

/-- The tokens of spellings one behind the other, from a line on. -/
def tokensFrom (line : Nat) : List SpelledToken → List Token
  | [] => []
  | spelling :: rest => spelling.token line :: tokensFrom (line + spelling.breaks) rest

/-- The line on which the spellings end. -/
def lastLine (line : Nat) : List SpelledToken → Nat
  | [] => line
  | spelling :: rest => lastLine (line + spelling.breaks) rest

/-- The spellings with a single space between any two. -/
def spaced (spellings : List SpelledToken) : String :=
  " ".intercalate (spellings.map text)

@[simp] theorem length_tokensFrom (line : Nat) (spellings : List SpelledToken) :
    (tokensFrom line spellings).length = spellings.length := by
  induction spellings generalizing line with
  | nil => rfl
  | cons spelling rest inductionHypothesis =>
    rw [tokensFrom, List.length_cons, List.length_cons, inductionHypothesis]

theorem tokensFrom_append (line : Nat) (first second : List SpelledToken) :
    tokensFrom line (first ++ second) =
      tokensFrom line first ++ tokensFrom (lastLine line first) second := by
  induction first generalizing line with
  | nil => rfl
  | cons spelling rest inductionHypothesis =>
    rw [List.cons_append, tokensFrom, tokensFrom, inductionHypothesis, List.cons_append, lastLine]

/-- The text of spellings starts with the first one and a space. -/
theorem toList_spaced_cons (spelling next : SpelledToken) (rest : List SpelledToken) :
    (spaced (spelling :: next :: rest)).toList =
      spelling.first :: (spelling.rest ++ ' ' :: (spaced (next :: rest)).toList) := by
  rw [spaced, List.map_cons, List.map_cons, String.intercalate_cons_cons]
  simp [spaced, text, String.toList_append]

theorem lays_spaced_cons {ends : Bool} {line : Nat} (spelling next : SpelledToken)
    {rest : List SpelledToken} {tokens : List Token}
    (laid : ∀ ends, Lays ends (line + spelling.breaks) (spaced (next :: rest)).toList tokens) :
    Lays ends line (spaced (spelling :: next :: rest)).toList (spelling.token line :: tokens) := by
  rw [toList_spaced_cons]
  exact Lays.separated (by decide) spelling.cut fun ends => Lays.space (laid ends)

/-- A text of spellings is laid out as their tokens, with the semicolon that its end puts in. -/
theorem lays_spaced {ends : Bool} {line : Nat} (front : List SpelledToken) (final : SpelledToken) :
    Lays ends line (spaced (front ++ [final])).toList
      (tokensFrom line (front ++ [final]) ++
        terminators (final.token 0).endsStatement (lastLine line (front ++ [final]))) := by
  induction front generalizing ends line with
  | nil =>
    have text : (spaced [final]).toList = final.first :: (final.rest ++ []) := by
      rw [spaced, List.map_singleton, String.intercalate_singleton, text, String.toList_ofList,
        List.append_nil]
    have cut : nextLexeme final.first (final.rest ++ []) =
        .ok (.token final.kind, final.rest.length) := by
      rw [List.append_nil]
      exact final.cut
    rw [List.nil_append, text]
    exact Lays.token cut (Lays.nil _ _)
  | cons spelling front inductionHypothesis =>
    have rest : ∀ ends, Lays ends (line + spelling.breaks) (spaced (front ++ [final])).toList
        (tokensFrom (line + spelling.breaks) (front ++ [final]) ++
          terminators (final.token 0).endsStatement
            (lastLine line (spelling :: (front ++ [final])))) :=
      fun ends => inductionHypothesis
    rw [List.cons_append, tokensFrom, List.cons_append]
    cases front with
    | nil => exact lays_spaced_cons spelling final rest
    | cons next front => exact lays_spaced_cons spelling next rest

/-! ### Symbols -/

/-- A comma. -/
def comma : SpelledToken :=
  ⟨.op, ',', [], rfl⟩

/-- A semicolon. -/
def semicolon : SpelledToken :=
  ⟨.semicolon, ';', [], rfl⟩

/-- The mark between the names and the initialisers. -/
def assign : SpelledToken :=
  ⟨.op, '=', [], rfl⟩

/-- The parenthesis that opens a group. -/
def opening : SpelledToken :=
  ⟨.op, '(', [], rfl⟩

/-- The parenthesis that closes a group. -/
def closing : SpelledToken :=
  ⟨.op, ')', [], rfl⟩

/-- The package clause. -/
def package : List SpelledToken :=
  [⟨.keyword, 'p', "ackage".toList, eq_ok_of_toOption (by decide +kernel)⟩,
    ⟨.ident, 'p', [], eq_ok_of_toOption (by decide +kernel)⟩, semicolon]

theorem nextLexeme_const : nextLexeme 'c' "onst".toList = .ok (.token .keyword, 4) :=
  eq_ok_of_toOption (by decide +kernel)

theorem nextLexeme_var : nextLexeme 'v' "ar".toList = .ok (.token .keyword, 2) :=
  eq_ok_of_toOption (by decide +kernel)

/-- The keyword of a declaration. -/
def keyword : ValueKeyword → SpelledToken
  | .const => ⟨.keyword, 'c', "onst".toList, nextLexeme_const⟩
  | .var => ⟨.keyword, 'v', "ar".toList, nextLexeme_var⟩

/-- A name. -/
def name (identifier : Identifier) : SpelledToken where
  kind := .ident
  first := identifier.first
  rest := identifier.rest
  cut := by
    have cut := nextLexeme_identifier identifier (show Apart [] from nofun)
    rw [List.append_nil] at cut
    exact cut

end SpelledToken

open SpelledToken

/-! ### What is printed -/

/-- A token that ends an initialiser where no bracket is open. -/
def Token.separates (token : Token) : Bool :=
  token.kind == .semicolon || token.isOp ","

/-- No comma and no semicolon stands where no bracket is open. -/
def Unseparated (tokens : List Token) : Prop :=
  ∀ before token after, tokens = before ++ token :: after → net before = 0 →
    token.separates = false

/-- An initialiser: balanced brackets, and every comma and semicolon inside of them. -/
structure Expression where
  spellings : List SpelledToken
  full : spellings ≠ []
  balanced : Balanced (spellings.map (token 1))
  unseparated : Unseparated (spellings.map (token 1))

/-- The spelling of an initialiser as the reader keeps it. -/
def Expression.text (expression : Expression) : String :=
  Token.join (expression.spellings.map (token 1))

/-- A line of a group: names, and initialisers if there are any. -/
structure GroupSpec where
  first : Identifier
  others : List Identifier
  values : List Expression

/-- The specification that a line declares. -/
def GroupSpec.read (spec : GroupSpec) : ValueSpec :=
  ⟨(spec.first :: spec.others).map Identifier.text, spec.values.map Expression.text⟩

/-- Initialisers with commas between them, behind the mark that introduces them. -/
def initialiserSpellings : List Expression → List SpelledToken
  | [] => []
  | first :: others => assign :: [comma].intercalate ((first :: others).map Expression.spellings)

/-- The tokens of a line of a group. -/
def GroupSpec.spellings (spec : GroupSpec) : List SpelledToken :=
  [comma].intercalate ((spec.first :: spec.others).map fun identifier => [name identifier]) ++
    initialiserSpellings spec.values

/-- The tokens of a group behind its opening parenthesis. -/
def groupSpellings (specs : List GroupSpec) : List SpelledToken :=
  [semicolon].intercalate (specs.map GroupSpec.spellings) ++ [closing]

/-- The source of a group, one token behind the other with single spaces. -/
def valueGroupText (word : ValueKeyword) (specs : List GroupSpec) : String :=
  spaced (package ++ keyword word :: opening :: groupSpellings specs)

/-! ### Levels -/

/-- Whether no comma and no semicolon stands at level zero, when the level starts at `level`. -/
def Encloses (level : Int) : List Token → Prop
  | [] => True
  | token :: rest => (level = 0 → token.separates = false) ∧ Encloses (level + token.step) rest

instance decidableEncloses (level : Int) (tokens : List Token) :
    Decidable (Encloses level tokens) :=
  match tokens with
  | [] => inferInstanceAs (Decidable True)
  | token :: rest =>
    have := decidableEncloses (level + token.step) rest
    inferInstanceAs (Decidable (_ ∧ _))

theorem encloses_iff {level : Int} {tokens : List Token} : Encloses level tokens ↔
    ∀ before token after, tokens = before ++ token :: after → level + net before = 0 →
      token.separates = false := by
  induction tokens generalizing level with
  | nil => simp [Encloses]
  | cons token rest inductionHypothesis =>
    rw [Encloses, inductionHypothesis]
    constructor
    · rintro ⟨head, tail⟩ before other after split zero
      cases before with
      | nil =>
        obtain ⟨rfl, -⟩ := List.cons.inj split
        exact head (by simpa using zero)
      | cons first before =>
        obtain ⟨rfl, behind⟩ := List.cons.inj split
        exact tail before other after behind (by rw [net_cons] at zero; omega)
    · intro each
      refine ⟨fun zero => each [] token rest rfl (by simpa using zero), ?_⟩
      intro before other after behind zero
      refine each (token :: before) other after (by rw [behind]; rfl) ?_
      rw [net_cons]
      omega

theorem unseparated_iff {tokens : List Token} : Unseparated tokens ↔ Encloses 0 tokens := by
  rw [encloses_iff]
  simp only [Unseparated, Int.zero_add]

instance decidableUnseparated (tokens : List Token) : Decidable (Unseparated tokens) :=
  decidable_of_iff _ unseparated_iff.symm

/-! ### Reading the parts -/

/-- How tokens are spelled together does not depend on their lines. -/
theorem join_tokensFrom (line : Nat) (spellings : List SpelledToken) :
    Token.join (tokensFrom line spellings) = Token.join (spellings.map (token 1)) := by
  have behind : ∀ (previous : SpelledToken) (other line : Nat) (rest : List SpelledToken),
      Token.joinAfter (previous.token other) (tokensFrom line rest) =
        Token.joinAfter (previous.token 1) (rest.map (token 1)) := by
    intro previous other line rest
    induction rest generalizing previous other line with
    | nil => rfl
    | cons spelling rest inductionHypothesis =>
      rw [tokensFrom, List.map_cons, Token.joinAfter, Token.joinAfter, inductionHypothesis]
      rfl
  cases spellings with
  | nil => rfl
  | cons first rest =>
    rw [tokensFrom, List.map_cons, Token.join, Token.join, behind]
    rfl

/-- The step of the reader over a token that ends no initialiser. -/
theorem initialisers_cons {level : Int} {token : Token} (current rest : List Token)
    (stays : 0 ≤ level + token.step) (encloses : level = 0 → token.separates = false) :
    initialisers level current (token :: rest) =
      (initialisers (level + token.step) (token :: current) rest).map id (· + 1) := by
  have inside : level = 0 → token.kind ≠ .semicolon ∧ token.isOp "," = false := by
    intro zero
    have plain := encloses zero
    rw [Token.separates, Bool.or_eq_false_iff, beq_eq_false_iff_ne] at plain
    exact plain
  have unclosed : level = 0 → token.isOp ")" = false := by
    rintro rfl
    refine eq_false_of_ne_true fun closes => ?_
    have closer : token.isCloser := by
      rw [Token.isOp, Bool.and_eq_true, beq_iff_eq, beq_iff_eq] at closes
      simp [Token.isCloser, closes]
    rw [Token.step_of_isCloser closer] at stays
    omega
  have deeper : (if token.isOpener then level + 1 else if token.isCloser then level - 1
      else level) = level + token.step := by
    unfold Token.step
    split
    · rfl
    · split
      · rfl
      · exact (Int.add_zero level).symm
  rw [initialisers, if_neg, if_neg, deeper]
  · rfl
  · rintro ⟨zero, separates⟩
    rw [(inside zero).2] at separates
    exact Bool.false_ne_true separates
  · rintro ⟨zero, ends | closes⟩
    · exact (inside zero).1 ends
    · rw [unclosed zero] at closes
      exact Bool.false_ne_true closes

/-- The reader takes a run that keeps its level and separates nothing into the initialiser that it
is at. -/
theorem initialisers_run {level : Int} (line : Nat) (run : List SpelledToken)
    (current rest : List Token) (stays : Stays level (run.map (token 1)))
    (encloses : Encloses level (run.map (token 1))) :
    initialisers level current (tokensFrom line run ++ rest) =
      (initialisers (level + net (run.map (token 1))) ((tokensFrom line run).reverse ++ current)
        rest).map id (· + run.length) := by
  induction run generalizing level line current with
  | nil =>
    rw [List.map_nil, net_nil, Int.add_zero]
    rfl
  | cons spelling run inductionHypothesis =>
    obtain ⟨-, staysBehind⟩ := stays
    obtain ⟨head, enclosesBehind⟩ := encloses
    have step : (spelling.token line).step = (spelling.token 1).step := rfl
    have next := @initialisers_cons level (spelling.token line) current
      (tokensFrom (line + spelling.breaks) run ++ rest) staysBehind.start head
    rw [tokensFrom, List.cons_append, next, step,
      inductionHypothesis _ _ staysBehind enclosesBehind, List.map_cons, net_cons, Int.add_assoc,
      List.reverse_cons, List.append_assoc, List.length_cons]
    rfl

/-- What ends a line of a group. -/
def Ender (spelling : SpelledToken) : Prop :=
  spelling = semicolon ∨ spelling = closing

theorem initialisers_ender {spelling : SpelledToken} (ends : Ender spelling) (line : Nat)
    {current : List Token} (full : current ≠ []) (rest : List Token) :
    initialisers 0 current (spelling.token line :: rest) = ([Token.join current.reverse], 0) := by
  have stop : (spelling.token line).kind = .semicolon ∨ (spelling.token line).isOp ")" := by
    obtain rfl | rfl := ends
    · exact Or.inl rfl
    · exact Or.inr rfl
  rw [initialisers, if_pos ⟨rfl, stop⟩, if_neg (by simpa using full)]

/-- An initialiser is read as far as it goes. -/
theorem initialisers_expression (line : Nat) (expression : Expression) (rest : List Token) :
    initialisers 0 [] (tokensFrom line expression.spellings ++ rest) =
      (initialisers 0 (tokensFrom line expression.spellings).reverse rest).map id
        (· + expression.spellings.length) := by
  obtain ⟨stays, level⟩ := balanced_iff.mp expression.balanced
  rw [initialisers_run line _ _ _ stays (unseparated_iff.mp expression.unseparated), level,
    List.append_nil, Int.add_zero]

theorem reverse_tokensFrom_ne_nil (line : Nat) (expression : Expression) :
    (tokensFrom line expression.spellings).reverse ≠ [] := by
  intro empty
  have length := congrArg List.length empty
  rw [List.length_reverse, length_tokensFrom] at length
  exact expression.full (List.eq_nil_of_length_eq_zero length)

theorem initialisers_expressions {ender : SpelledToken} (ends : Ender ender) (line last : Nat)
    (first : Expression) (others : List Expression) (rest : List Token) :
    initialisers 0 [] (tokensFrom line
        ([comma].intercalate ((first :: others).map Expression.spellings)) ++
          ender.token last :: rest) =
      ((first :: others).map Expression.text,
        ([comma].intercalate ((first :: others).map Expression.spellings)).length) := by
  induction others generalizing first line with
  | nil =>
    rw [List.map_singleton, List.intercalate_singleton, initialisers_expression,
      initialisers_ender ends last (reverse_tokensFrom_ne_nil line first), List.reverse_reverse,
      join_tokensFrom]
    simp [Expression.text]
  | cons next others inductionHypothesis =>
    have comma_step : ∀ line current rest, initialisers 0 current (comma.token line :: rest) =
        (initialisers 0 [] rest).map (Token.join current.reverse :: ·) (· + 1) :=
      fun line current rest => rfl
    rw [List.map_cons, List.map_cons, List.intercalate_cons_cons, List.append_assoc,
      tokensFrom_append, List.singleton_append, tokensFrom, List.append_assoc, List.cons_append,
      initialisers_expression, comma_step, ← List.map_cons, inductionHypothesis,
      List.reverse_reverse, join_tokensFrom]
    simp [Expression.text]
    omega

/-- The names of a line are all on one line. -/
theorem tokensFrom_names (line : Nat) (first : Identifier) (others : List Identifier) :
    tokensFrom line ([comma].intercalate ((first :: others).map fun identifier =>
      [name identifier])) = namesTokens line first others := by
  have breaks : ∀ identifier, (name identifier).breaks = 0 := fun identifier => rfl
  induction others generalizing first with
  | nil => rfl
  | cons next others inductionHypothesis =>
    have behind := inductionHypothesis next
    rw [List.map_cons] at behind
    rw [List.map_cons, List.map_cons, List.intercalate_cons_cons, List.append_assoc,
      List.singleton_append, List.singleton_append, tokensFrom, tokensFrom, breaks, Nat.add_zero,
      show comma.breaks = 0 from rfl, Nat.add_zero, behind]
    rfl

/-- Names with initialisers behind them. -/
theorem valueSpec_initialised {tokens rest : List Token} {mark : Token} {names values : List String}
    {namesUsed used : Nat} (readNames : identifierList tokens = .ok (names, namesUsed))
    (behind : tokens.drop namesUsed = mark :: rest) (marks : mark.is "=")
    (readValues : initialisers 0 [] rest = (values, used)) :
    valueSpec tokens = .ok (⟨names, values⟩, namesUsed + 1 + used) := by
  have next : nextIs "=" (mark :: rest) = true := marks
  have left : tokens.drop (namesUsed + 1) = rest := by
    rw [← List.drop_drop, behind]
    rfl
  rw [valueSpec, readNames]
  simp only [bind, Except.bind, behind, skipValueType, next, Bool.true_or, if_true, Nat.add_zero,
    left, readValues]
  rfl

/-- Names alone. -/
theorem valueSpec_names {tokens rest : List Token} {ender : SpelledToken} {last : Nat}
    {names : List String} {namesUsed : Nat} (ends : Ender ender)
    (readNames : identifierList tokens = .ok (names, namesUsed))
    (behind : tokens.drop namesUsed = ender.token last :: rest) :
    valueSpec tokens = .ok (⟨names, []⟩, namesUsed) := by
  have unmarked : nextIs "=" (ender.token last :: rest) = false := by
    obtain rfl | rfl := ends
    · rfl
    · rfl
  have untyped : skipValueType (ender.token last :: rest) = .ok 0 := by
    obtain rfl | rfl := ends
    · rfl
    · rfl
  rw [valueSpec, readNames]
  simp only [bind, Except.bind, behind, untyped, unmarked, Nat.add_zero]
  rfl

theorem valueSpec_spellings {ender : SpelledToken} (ends : Ender ender) (line last : Nat)
    (spec : GroupSpec) (rest : List Token) :
    valueSpec (tokensFrom line spec.spellings ++ ender.token last :: rest) =
      .ok (spec.read, spec.spellings.length) := by
  obtain ⟨first, others, values⟩ := spec
  have length : (namesTokens line first others).length = ([comma].intercalate
      ((first :: others).map fun identifier => [name identifier])).length := by
    rw [← tokensFrom_names, length_tokensFrom]
  rw [GroupSpec.spellings, tokensFrom_append, tokensFrom_names, List.append_assoc,
    List.length_append, ← length]
  cases values with
  | nil =>
    have comma : nextIs "," (ender.token last :: rest) = false := by
      obtain rfl | rfl := ends
      · rfl
      · rfl
    exact valueSpec_names ends (identifierList_tokens line first others comma) List.drop_left
  | cons value values =>
    rw [initialiserSpellings, tokensFrom, List.cons_append, List.length_cons, Nat.add_comm _ 1,
      ← Nat.add_assoc]
    exact valueSpec_initialised (identifierList_tokens line first others rfl) List.drop_left rfl
      (initialisers_expressions ends _ last value values rest)

/-! ### Reading the group -/

/-- A line of a group starts with a name. -/
theorem spellings_head (spec : GroupSpec) :
    ∃ rest, spec.spellings = name spec.first :: rest := by
  obtain ⟨first, others, values⟩ := spec
  cases others with
  | nil => exact ⟨_, rfl⟩
  | cons next others => exact ⟨_, rfl⟩

/-- A line of a group and what ends it, before the rest of the group. -/
theorem valueGroup_item {ender : SpelledToken} (ends : Ender ender) (word : ValueKeyword)
    (line last : Nat) (spec : GroupSpec) {rest : List Token} {others : List ValueSpec} {used : Nat}
    (readOthers : valueGroup word (ender.token last :: rest) = .ok (others, used)) :
    valueGroup word (tokensFrom line spec.spellings ++ ender.token last :: rest) =
      .ok (spec.read :: others, spec.spellings.length + used) := by
  obtain ⟨tail, head⟩ := spellings_head spec
  have read := valueSpec_spellings ends line last spec rest
  have ending : nextIs ")" (ender.token last :: rest) ∨ nextIs ";" (ender.token last :: rest) := by
    obtain rfl | rfl := ends
    · exact Or.inr rfl
    · exact Or.inl rfl
  rw [head, tokensFrom, List.cons_append] at read ⊢
  have one : single (valueSpec ((name spec.first).token line ::
      (tokensFrom (line + (name spec.first).breaks) tail ++ ender.token last :: rest))) =
      .ok ([spec.read], tail.length + 1) := single_eq_ok.mpr ⟨_, read, rfl⟩
  refine itemsUntil_item (spec.first.token_is line _) (spec.first.token_is line _) one ?_ ending
    readOthers
  have length : tail.length = (tokensFrom (line + (name spec.first).breaks) tail).length := by
    rw [length_tokensFrom]
  rw [length]
  exact List.drop_left

theorem valueGroup_spellings (word : ValueKeyword) (line : Nat) (specs : List GroupSpec)
    (rest : List Token) :
    valueGroup word (tokensFrom line (groupSpellings specs) ++ rest) =
      .ok (specs.map GroupSpec.read, (groupSpellings specs).length) := by
  have closes : ∀ line, valueGroup word (closing.token line :: rest) = .ok ([], 1) := by
    intro line
    rw [valueGroup, itemsUntil, if_pos (show (closing.token line).is ")" from rfl)]
  induction specs generalizing line with
  | nil => exact closes line
  | cons spec specs inductionHypothesis =>
    cases specs with
    | nil =>
      rw [groupSpellings, List.map_singleton, List.intercalate_singleton, tokensFrom_append,
        List.append_assoc, List.length_append]
      exact valueGroup_item (Or.inr rfl) word line _ spec (closes _)
    | cons next specs =>
      have whole : groupSpellings (spec :: next :: specs) =
          spec.spellings ++ semicolon :: groupSpellings (next :: specs) := by
        simp [groupSpellings]
      rw [whole, tokensFrom_append, List.append_assoc, List.length_append, List.length_cons]
      exact valueGroup_item (Or.inl rfl) word line _ spec
        (itemsUntil_separator rfl rfl (inductionHypothesis _))

/-! ### Reading the source back -/

/-- The declaration that the source of a group holds. -/
def groupDeclaration (word : ValueKeyword) (specs : List GroupSpec) : ValueDeclaration :=
  ⟨word, "", specs.map GroupSpec.read, 1⟩

theorem valueDeclaration_group (word : ValueKeyword) (specs : List GroupSpec)
    (rest : List Token) :
    valueDeclaration [] word 1 (opening.token 1 :: (tokensFrom 1 (groupSpellings specs) ++ rest)) =
      .ok (groupDeclaration word specs, (groupSpellings specs).length + 1) := by
  have opens : nextIs "(" (opening.token 1 :: (tokensFrom 1 (groupSpellings specs) ++ rest)) =
      true := rfl
  have specifications : valueSpecs word
      (opening.token 1 :: (tokensFrom 1 (groupSpellings specs) ++ rest)) =
      .ok (specs.map GroupSpec.read, (groupSpellings specs).length + 1) := by
    rw [valueSpecs, if_pos opens, List.drop_one, List.tail_cons, valueGroup_spellings]
    rfl
  rw [valueDeclaration, specifications]
  rfl

theorem topLevel_group (word : ValueKeyword) (specs : List GroupSpec) (rest : List Token) :
    topLevel [] ((keyword word).token 1)
        (opening.token 1 :: (tokensFrom 1 (groupSpellings specs) ++ rest)) =
      .ok ([.value (groupDeclaration word specs)], (groupSpellings specs).length + 1 + 1) := by
  have text : ((keyword word).token 1).text = word.text := by cases word <;> decide +kernel
  have kind : ((keyword word).token 1).kind = .keyword := by cases word <;> rfl
  exact TopForm.read kind (.value word text (valueDeclaration_group word specs rest))

theorem declarations_group (word : ValueKeyword) (specs : List GroupSpec) (line : Nat) :
    declarations [] (tokensFrom 1 (package ++ keyword word :: opening :: groupSpellings specs) ++
      [.terminator line]) = .ok [.value (groupDeclaration word specs)] := by
  have clause : tokensFrom 1 package =
      [⟨.keyword, "package", 1⟩, ⟨.ident, "p", 1⟩, .terminator 1] := by decide +kernel
  have oneLine : lastLine 1 package = 1 := by decide +kernel
  have breaks : (keyword word).breaks = 0 := by cases word <;> rfl
  have front : tokensFrom 1 (package ++ keyword word :: opening :: groupSpellings specs) =
      ⟨.keyword, "package", 1⟩ :: ⟨.ident, "p", 1⟩ :: .terminator 1 :: (keyword word).token 1 ::
        opening.token 1 :: tokensFrom 1 (groupSpellings specs) := by
    rw [tokensFrom_append, clause, oneLine, tokensFrom, tokensFrom, breaks]
    rfl
  have left : (opening.token 1 :: (tokensFrom 1 (groupSpellings specs) ++
      [.terminator line])).drop ((groupSpellings specs).length + 1) = [.terminator line] := by
    rw [List.drop_succ_cons, ← length_tokensFrom 1, List.drop_left]
  have finish : declarations [] [] = .ok [] := by rw [declarations]
  have starts : ((keyword word).token 1).kind ≠ .semicolon := by cases word <;> decide
  simp only [front, List.cons_append]
  rw [declarations_package, declarations_behind starts (topLevel_group word specs _) left, finish]
  rfl

/-- Reading undoes printing: the source of a group of constants or variables is read as one
declaration with the names and the initialisers of its lines in order. -/
theorem readSource_valueGroupText (word : ValueKeyword) (specs : List GroupSpec) :
    readSource (valueGroupText word specs) =
      .ok [.value ⟨word, "", specs.map GroupSpec.read, 1⟩] := by
  let front := package ++ keyword word :: opening ::
    [semicolon].intercalate (specs.map GroupSpec.spellings)
  have whole : package ++ keyword word :: opening :: groupSpellings specs = front ++ [closing] := by
    simp [groupSpellings, front]
  have laid := @lays_spaced false 1 front closing
  rw [← whole] at laid
  exact readSource_eq_ok.mpr ⟨_, layoutOf_of_lays laid, declarations_group word specs _⟩

/-- An operator of one character. -/
def SpelledToken.operator (char : Char) (cut : nextLexeme char [] = .ok (.token .op, 0)) :
    SpelledToken :=
  ⟨.op, char, [], cut⟩

/-- A name of one letter. -/
def letter (char : Char) (start : isWordStart char)
    (unreserved : String.ofList [char] ∉ keywords) : Identifier :=
  ⟨char, [], start, nofun, unreserved⟩

/-- A call with a function literal among its arguments. -/
def nestedCall : Expression where
  spellings :=
    [name (letter 'f' rfl (by decide)), opening, ⟨.string, '"', ['(', '"'], rfl⟩, comma,
      ⟨.keyword, 'f', "unc".toList, eq_ok_of_toOption (by decide +kernel)⟩, opening, closing,
      operator '\x7b' rfl, name (letter 'g' rfl (by decide)), opening, closing, semicolon,
      operator '\x7d' rfl, closing]
  full := nofun
  balanced := by decide +kernel
  unseparated := by decide +kernel

/-- A composite literal. -/
def sliceLiteral : Expression where
  spellings :=
    [operator '[' rfl, operator ']' rfl, name (letter 'T' rfl (by decide)), operator '\x7b' rfl,
      ⟨.number, '1', [], rfl⟩, comma, ⟨.number, '2', [], rfl⟩, operator '\x7d' rfl]
  full := nofun
  balanced := by decide +kernel
  unseparated := by decide +kernel

/-- The statement at a line with two names and two initialisers and a line with a name alone. -/
theorem readSource_valueGroupText_nested :
    let specs : List GroupSpec :=
      [⟨letter 'a' rfl (by decide), [letter 'b' rfl (by decide)], [nestedCall, sliceLiteral]⟩,
        ⟨letter 'c' rfl (by decide), [], []⟩]
    let line := "package p ; const ( a , b = " ++
      "f ( \"(\" , func ( ) \x7b g ( ) ; \x7d ) , [ ] T \x7b 1 , 2 \x7d ; c )"
    valueGroupText .const specs = line ∧
      readSource line = .ok [.value ⟨.const, "",
        [⟨["a", "b"], ["f(\"(\",func()\x7bg();\x7d)", "[]T\x7b1,2\x7d"]⟩, ⟨["c"], []⟩], 1⟩] := by
  intro specs line
  have text : valueGroupText .const specs = line := by decide +kernel
  have values : nestedCall.text = "f(\"(\",func()\x7bg();\x7d)" ∧
      sliceLiteral.text = "[]T\x7b1,2\x7d" := by decide +kernel
  refine ⟨text, ?_⟩
  rw [← text, readSource_valueGroupText]
  simp [specs, GroupSpec.read, values, letter, Identifier.text]

end GoApiDoc.Go
