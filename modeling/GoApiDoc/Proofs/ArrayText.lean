/-
This file prints array types whose length is a constant expression and says what the reader makes
of them. Behind the name of a declared type a bracket opens the length of an array or a list of type
parameters, and the reader tells them apart by the two tokens behind the bracket: a name that the
closing bracket does not follow at once counts as type parameters, which are passed over. So an
expression that starts with a name and goes on, such as the sum of a constant and a number, is lost
together with its array, and what is declared is the element type. Every other expression is kept.

An expression is a list of tokens of its own here, with single spaces between them. Each token holds
the fact that its spelling is cut off as one token where nothing follows; it is then cut off in the
same way in front of a space or a closing bracket, since neither goes on a name, a number or an
operator.
-/

import GoApiDoc.Proofs.Seam
import GoApiDoc.Proofs.StructText
import GoApiDoc.SchemaOf

namespace GoApiDoc.Go

open Document Text

/-! ### What is printed -/

/-- A token of a constant expression: a name, a number, or an operator other than a bracket. -/
structure ConstantToken where
  kind : TokenKind
  first : Char
  rest : List Char
  symbol : kind ∈ [TokenKind.ident, .number, .op]
  cut : nextLexeme first rest = .ok (.token kind, rest.length)
  unbracketed : String.ofList (first :: rest) ∉ ["(", ")", "[", "]", "\x7b", "\x7d"]

/-- The spelling of a token. -/
def ConstantToken.text (token : ConstantToken) : String :=
  String.ofList (token.first :: token.rest)

/-- A constant expression: one token or more. -/
structure ConstantExpression where
  first : ConstantToken
  others : List ConstantToken

/-- An expression with single spaces between its tokens. -/
def ConstantExpression.text (length : ConstantExpression) : String :=
  " ".intercalate ((length.first :: length.others).map ConstantToken.text)

/-- The source that declares one array type. -/
def arrayText (name : Identifier) (length : ConstantExpression) (element : PlainType) : String :=
  "package p\ntype " ++ name.text ++ " [" ++ length.text ++ "]" ++ element.ref.spelling ++ "\n"

/-! ### The tokens -/

/-- The token on a line. -/
def ConstantToken.token (line : Nat) (token : ConstantToken) : Token :=
  ⟨token.kind, token.text, line⟩

/-- The tokens of an expression. -/
def ConstantExpression.tokens (line : Nat) (length : ConstantExpression) : List Token :=
  (length.first :: length.others).map (ConstantToken.token line)

/-- The tokens behind the name of an array type, with the semicolon that ends the line. -/
def arrayTokens (length : ConstantExpression) (element : PlainType) : List Token :=
  ⟨.op, "[", 2⟩ :: (length.tokens 2 ++ ⟨.op, "]", 2⟩ :: (element.tokens 2 ++ [.terminator 2]))

/-- The tokens of a source that declares one array type. -/
def arraySourceTokens (name : Identifier) (length : ConstantExpression) (element : PlainType) :
    List Token :=
  [⟨.keyword, "package", 1⟩, ⟨.ident, "p", 1⟩, .terminator 1, ⟨.keyword, "type", 2⟩,
    name.token 2] ++ arrayTokens length element

namespace ConstantToken

variable (token : ConstantToken)

theorem text_ne (bracket : String) (listed : bracket ∈ ["(", ")", "[", "]", "\x7b", "\x7d"]) :
    token.text ≠ bracket := by
  rintro rfl
  exact token.unbracketed listed

theorem token_is_closer (line : Nat) : (token.token line).is "]" = false := by
  simp [ConstantToken.token, Token.is, token.text_ne "]" (by simp)]

theorem isOpener_token (line : Nat) : (token.token line).isOpener = false := by
  simp [ConstantToken.token, Token.isOpener, token.text_ne "(" (by simp),
    token.text_ne "[" (by simp), token.text_ne "\x7b" (by simp)]

theorem isCloser_token (line : Nat) : (token.token line).isCloser = false := by
  simp [ConstantToken.token, Token.isCloser, token.text_ne ")" (by simp),
    token.text_ne "]" (by simp), token.text_ne "\x7d" (by simp)]

end ConstantToken

/-! ### Laying out the text -/

/-- A token of an expression in front of a separator. -/
theorem lays_constantToken {ends : Bool} {line : Nat} {separator : Char} {rest : List Char}
    {tokens : List Token} (token : ConstantToken) (separates : separator ∈ separators)
    (laid : ∀ ends, Lays ends line (separator :: rest) tokens) :
    Lays ends line (token.text.toList ++ separator :: rest) (token.token line :: tokens) := by
  have breaks : ∀ kind ∈ [TokenKind.ident, .number, .op],
      Lexeme.lineBreaks ⟨.token kind, token.first :: token.rest, line⟩ = 0 := by
    simp [Lexeme.lineBreaks]
  rw [ConstantToken.text, String.toList_ofList]
  refine Lays.separated separates token.cut fun ends => ?_
  rw [breaks token.kind token.symbol]
  exact laid ends

theorem lays_constantExpression {ends : Bool} {line : Nat} {rest : List Char}
    {tokens : List Token} (first : ConstantToken) (others : List ConstantToken)
    (laid : ∀ ends, Lays ends line (']' :: rest) tokens) :
    Lays ends line ((ConstantExpression.text ⟨first, others⟩).toList ++ ']' :: rest)
      (ConstantExpression.tokens line ⟨first, others⟩ ++ tokens) := by
  induction others generalizing ends first with
  | nil =>
    rw [ConstantExpression.text, List.map_singleton, String.intercalate_singleton]
    exact lays_constantToken first (by decide) laid
  | cons next others inductionHypothesis =>
    have text : (ConstantExpression.text ⟨first, next :: others⟩).toList ++ ']' :: rest =
        first.text.toList ++ ' ' ::
          ((ConstantExpression.text ⟨next, others⟩).toList ++ ']' :: rest) := by
      rw [ConstantExpression.text, List.map_cons, List.map_cons, String.intercalate_cons_cons]
      simp [ConstantExpression.text, String.toList_append]
    rw [text]
    exact lays_constantToken first (by decide) fun ends => Lays.space (inductionHypothesis next)

/-- The source of an array type is laid out as its tokens. -/
theorem lays_array (name : Identifier) (length : ConstantExpression) (element : PlainType) :
    Lays false 1 (arrayText name length element).toList
      (arraySourceTokens name length element) := by
  have pieces : ∀ name length element : String,
      ("package p\ntype " ++ name ++ " [" ++ length ++ "]" ++ element ++ "\n").toList =
        "package".toList ++ ' ' :: 'p' :: '\n' :: ("type".toList ++ ' ' :: (name.toList ++
          ' ' :: '[' :: (length.toList ++ ']' :: (element.toList ++ ['\n'])))) := by
    simp [String.toList_append]
  have finish : ∀ line, Lays true line ['\n'] [.terminator line] :=
    fun line => Lays.newline (Lays.nil false (line + 1))
  have closing : ∀ ends, Lays ends 2 (']' :: (element.ref.spelling.toList ++ ['\n']))
      (⟨.op, "]", 2⟩ :: (element.tokens 2 ++ [.terminator 2])) :=
    fun ends => Lays.op rfl (lays_type element (apart_cons rfl _) (finish 2))
  have behind : Lays true 2 (' ' :: '[' :: (length.text.toList ++
      ']' :: (element.ref.spelling.toList ++ ['\n']))) (arrayTokens length element) :=
    Lays.space (Lays.op rfl (lays_constantExpression length.first length.others closing))
  have declared : Lays false 2 ("type".toList ++ ' ' :: (name.text.toList ++ ' ' :: '[' ::
      (length.text.toList ++ ']' :: (element.ref.spelling.toList ++ ['\n']))))
      (⟨.keyword, "type", 2⟩ :: name.token 2 :: arrayTokens length element) :=
    lays_keyword (by decide) (apart_cons rfl _)
      (Lays.space (lays_identifier name (apart_cons rfl _) behind))
  have text := pieces name.text length.text element.ref.spelling
  unfold arrayText
  rw [text]
  exact lays_keyword (by decide) (apart_cons rfl _) (Lays.space
    (lays_identifier ⟨'p', [], by decide, by simp, by decide⟩ (apart_cons rfl _)
      (Lays.newline declared)))

/-! ### Telling an array from type parameters -/

/-- Whether the expression is a name with something behind it. -/
def ConstantExpression.startsParameters (length : ConstantExpression) : Bool :=
  length.first.kind == .ident && !length.others.isEmpty

theorem opensTypeParameters_array (length : ConstantExpression) (element : PlainType) :
    opensTypeParameters (arrayTokens length element) = length.startsParameters := by
  obtain ⟨first, others⟩ := length
  cases others with
  | nil => simp [arrayTokens, ConstantExpression.tokens, opensTypeParameters, Token.isOp,
      ConstantExpression.startsParameters]
  | cons next others =>
    simp [arrayTokens, ConstantExpression.tokens, opensTypeParameters, Token.isOp,
      ConstantExpression.startsParameters, Token.is, ConstantToken.token,
      next.text_ne "]" (by simp)]

/-- No bracket of an expression opens or closes, so the first one behind it closes. -/
theorem insideBrackets_map (tokens : List ConstantToken) (line : Nat) (rest : List Token) :
    insideBrackets 0 (tokens.map (ConstantToken.token line) ++ ⟨.op, "]", line⟩ :: rest) =
      some (tokens.map (ConstantToken.token line)) := by
  induction tokens with
  | nil => rfl
  | cons token tokens inductionHypothesis =>
    rw [List.map_cons, List.cons_append, insideBrackets, token.isOpener_token,
      token.isCloser_token, if_neg Bool.false_ne_true, if_neg Bool.false_ne_true,
      inductionHypothesis, Option.map_some]

theorem takeWhile_map (tokens : List ConstantToken) (line : Nat) (rest : List Token) :
    ((tokens.map (ConstantToken.token line) ++ ⟨.op, "]", line⟩ :: rest).takeWhile
      fun token => !token.is "]") = tokens.map (ConstantToken.token line) := by
  induction tokens with
  | nil => rfl
  | cons token tokens inductionHypothesis =>
    rw [List.map_cons, List.cons_append, List.takeWhile_cons, token.token_is_closer,
      Bool.not_false, if_pos rfl, inductionHypothesis]

/-- The tokens that are passed over behind the name of an array type. -/
theorem skipTypeParameters_array (length : ConstantExpression) (element : PlainType) :
    skipTypeParameters (arrayTokens length element) =
      .ok (if length.startsParameters then (length.tokens 2).length + 2 else 0) := by
  rw [skipTypeParameters, opensTypeParameters_array]
  split
  · have skipped : skipBalanced (arrayTokens length element) =
        .ok (length.tokens 2, (length.tokens 2).length + 2) := by
      have inside := insideBrackets_map (length.first :: length.others) 2
        (element.tokens 2 ++ [.terminator 2])
      have opens : (Token.mk .op "[" 2).isOpener := rfl
      rw [arrayTokens, skipBalanced, if_pos opens, ConstantExpression.tokens, inside]
    rw [skipped]
    rfl
  · rfl

/-! ### Reading the source back -/

/-- A type starts with a name, or with one of three tokens. -/
theorem nextIs_type (line : Nat) (type : PlainType) (rest : List Token) {text : String}
    (other : text ∉ ["*", "[", "map"]) : nextIs text (type.tokens line ++ rest) = false := by
  simp only [List.mem_cons, List.not_mem_nil, or_false, not_or] at other
  obtain ⟨star, bracket, map⟩ := other
  cases type with
  | basic name =>
    cases name with
    | own name => exact name.token_is line text
    | imported package name => exact package.token_is line text
  | pointer element => simp [PlainType.tokens, nextIs, Token.is, Ne.symm star]
  | sequence element length => simp [PlainType.tokens, nextIs, Token.is, Ne.symm bracket]
  | mapping key value => simp [PlainType.tokens, nextIs, Token.is, Ne.symm map]

theorem typeRef_element (element : PlainType) :
    typeRef (element.tokens 2 ++ [.terminator 2]) = .ok (element.ref, (element.tokens 2).length) :=
  typeRef_tokens 2 element rfl rfl

/-- An array type is read with its length, whatever the expression starts with. -/
theorem typeRef_array (length : ConstantExpression) (element : PlainType) :
    typeRef (arrayTokens length element) =
      .ok (.sequence element.ref (some (Token.join (length.tokens 2))),
        (length.tokens 2).length + (element.tokens 2).length + 2) := by
  have run := takeWhile_map (length.first :: length.others) 2
    (element.tokens 2 ++ [.terminator 2])
  refine typeRef_sequence rfl rfl run ?_ ?_
  · simp
  · rw [← ConstantExpression.tokens, List.drop_length_add_append]
    exact typeRef_element element

/-- A type specification whose type is no struct. -/
theorem typeSpec_typeRef (name : Token) {behind : List Token} {type : TypeRef}
    {skipped used : Nat} (kind : name.kind = .ident)
    (parameters : skipTypeParameters behind = .ok skipped)
    (unmarked : nextIs "=" (behind.drop skipped) = false)
    (unstructured : nextIs "struct" (behind.drop skipped) = false)
    (read : typeRef (behind.drop skipped) = .ok (type, used)) :
    typeSpec "" "" (name :: behind) =
      .ok ({ name := name.text, underlying := some type, line := name.line },
        skipped + used + 1) := by
  have body : typeBody (behind.drop skipped) = .ok ((none, some type), used) := by
    rw [typeBody, unstructured, Bool.false_and, if_neg Bool.false_ne_true, read]
    rfl
  have start : (name :: behind).drop (skipped + 0 + 1) = behind.drop skipped := rfl
  rw [typeSpec, bind_eq_ok]
  refine ⟨name, identifier_eq_ok.mpr ⟨kind, rfl⟩, ?_⟩
  rw [bind_eq_ok]
  refine ⟨skipped, parameters, ?_⟩
  simp only [unmarked, if_neg Bool.false_ne_true, start]
  rw [bind_eq_ok]
  refine ⟨((none, some type), used), body, ?_⟩
  rw [pure_eq_ok, Nat.add_zero, Nat.add_right_comm]

/-- The declaration that is read: of the element type alone where the expression counts as type
parameters, of the array otherwise. -/
def arrayDeclaration (name : Identifier) (length : ConstantExpression) (element : PlainType) :
    TypeDeclaration :=
  { name := name.text
    underlying := some (if length.startsParameters then element.ref
      else .sequence element.ref (some (Token.join (length.tokens 2))))
    line := 2 }

theorem typeSpec_array (name : Identifier) (length : ConstantExpression) (element : PlainType) :
    typeSpec "" "" (name.token 2 :: arrayTokens length element) =
      .ok (arrayDeclaration name length element,
        (length.tokens 2).length + (element.tokens 2).length + 3) := by
  have parameters := skipTypeParameters_array length element
  rw [arrayDeclaration]
  cases starts : length.startsParameters with
  | false =>
    rw [starts, if_neg Bool.false_ne_true] at parameters
    have read := typeSpec_typeRef (name.token 2) rfl parameters rfl rfl
      (typeRef_array length element)
    rw [read, Nat.zero_add]
    rfl
  | true =>
    rw [starts, if_pos rfl] at parameters
    have behind : (arrayTokens length element).drop ((length.tokens 2).length + 2) =
        element.tokens 2 ++ [.terminator 2] := by
      rw [arrayTokens, List.drop_succ_cons, List.drop_length_add_append]
      rfl
    have read := typeSpec_typeRef (name.token 2) rfl parameters
      (behind ▸ nextIs_type 2 element _ (by decide)) (behind ▸ nextIs_type 2 element _ (by decide))
      (behind ▸ typeRef_element element)
    rw [read, Nat.add_right_comm _ 2]
    rfl

theorem declarations_array (name : Identifier) (length : ConstantExpression)
    (element : PlainType) :
    declarations [] (arraySourceTokens name length element) =
      .ok [.type (arrayDeclaration name length element)] := by
  have left : (name.token 2 :: arrayTokens length element).drop
      ((length.tokens 2).length + (element.tokens 2).length + 3) = [.terminator 2] := by
    have count : (length.tokens 2).length + (element.tokens 2).length + 3 =
        ((length.tokens 2).length + ((element.tokens 2).length + 1)) + 2 := by omega
    rw [count, arrayTokens, List.drop_succ_cons, List.drop_succ_cons, List.drop_length_add_append,
      List.drop_succ_cons, List.drop_left]
  exact declarations_type (name.token_is 2 _) (typeSpec_array name length element) left

/-! ### What is kept of an array -/

theorem sequence_ne (element : TypeRef) (length : Option String) :
    TypeRef.sequence element length ≠ element := by
  intro same
  have sizes := congrArg sizeOf same
  rw [TypeRef.sequence.sizeOf_spec] at sizes
  omega

/-- Every type that is built from names has a schema. -/
theorem schemaOfType_plain (type : PlainType) : ∃ schema, schemaOfType type.ref = some schema := by
  induction type with
  | basic name =>
    cases name with
    | own name => exact ⟨_, rfl⟩
    | imported package name => exact ⟨_, rfl⟩
  | pointer element inductionHypothesis => exact inductionHypothesis
  | sequence element length inductionHypothesis =>
    obtain ⟨items, found⟩ := inductionHypothesis
    exact ⟨.array { items }, congrArg (Option.map _) found⟩
  | mapping key value _ inductionHypothesis =>
    obtain ⟨values, found⟩ := inductionHypothesis
    exact ⟨.object { additional := some (.described values) }, congrArg (Option.map _) found⟩

theorem underlying_array (name : Identifier) (length : ConstantExpression) (element : PlainType) :
    (arrayDeclaration name length element).underlying =
        some (.sequence element.ref (some (Token.join (length.tokens 2)))) ↔
      length.startsParameters = false := by
  rw [arrayDeclaration, Option.some.injEq]
  cases length.startsParameters with
  | false => simp
  | true => simpa using Ne.symm (sequence_ne element.ref _)

theorem schemaOfDeclaration_array (name : Identifier) (length : ConstantExpression)
    {element : PlainType} {items : Schema} (found : schemaOfType element.ref = some items) :
    schemaOfDeclaration (arrayDeclaration name length element) =
      ⟨[], .ok (if length.startsParameters then items else .array { items })⟩ := by
  cases starts : length.startsParameters with
  | false => simp [schemaOfDeclaration, arrayDeclaration, starts, schemaOfType, found]
  | true => simp [schemaOfDeclaration, arrayDeclaration, starts, found]

/-- A source that declares an array type is read as one declaration. It is of the array, and its
schema is the array of the schema of the elements, exactly when the length does not start with a
name that something follows; otherwise both are those of the element type. -/
theorem readSource_arrayText (name : Identifier) (length : ConstantExpression)
    (element : PlainType) :
    readSource (arrayText name length element) =
        .ok [.type (arrayDeclaration name length element)] ∧
      ((arrayDeclaration name length element).underlying =
          some (.sequence element.ref (some (Token.join (length.tokens 2)))) ↔
        length.startsParameters = false) ∧
      ∃ items, schemaOfType element.ref = some items ∧
        schemaOfDeclaration (arrayDeclaration name length element) =
          ⟨[], .ok (if length.startsParameters then items else .array { items })⟩ := by
  have laid := layoutOf_of_lays (lays_array name length element)
  obtain ⟨items, found⟩ := schemaOfType_plain element
  exact ⟨readSource_eq_ok.mpr ⟨_, laid, declarations_array name length element⟩,
    underlying_array name length element, items, found,
    schemaOfDeclaration_array name length found⟩

/-- The text of an array with a sum as its length. -/
example :
    let sum : ConstantExpression :=
      ⟨⟨.ident, 'N', [], by decide, rfl, by decide⟩,
        [⟨.op, '+', [], by decide, rfl, by decide⟩,
          ⟨.number, '1', [], by decide, rfl, by decide⟩]⟩
    arrayText ⟨'X', [], by decide, by simp, by decide⟩ sum
        (.basic (.own ⟨'i', ['n', 't'], by decide, List.all_eq_true.mp rfl, by decide⟩)) =
      "package p\ntype X [N + 1]int\n" := by
  decide +kernel

/-- The sum of a constant and a number is taken for type parameters; behind an equals sign the same
length is kept. -/
theorem array_of_sum_read_as_element :
    let kept : TypeDeclaration :=
      { name := "X", underlying := some (.sequence (.named "int") (some "N+1")), line := 2 }
    readSource "package p\ntype X [N + 1]int\n" =
        .ok [.type { kept with underlying := some (.named "int") }] ∧
      readSource "package p\ntype X [N + 1]int\n" ≠ .ok [.type kept] ∧
      readSource "package p\ntype X = [N + 1]int\n" = .ok [.type kept] := by
  intro kept
  have lost : readSource "package p\ntype X [N + 1]int\n" =
      .ok [.type { kept with underlying := some (.named "int") }] :=
    eq_ok_of_toOption (by decide +kernel)
  refine ⟨lost, ?_, eq_ok_of_toOption (by decide +kernel)⟩
  rw [lost]
  simp [kept]

end GoApiDoc.Go
