/-
This file prints struct declarations and shows that reading undoes printing. What is printed is
given by types that hold nothing else: names that are no keywords, types that are built from them
with pointers, sequences and maps, tags that a raw literal can hold, and groups of fields. Every
value of these types has a text, and the text of every list of groups reads back as the fields of
the groups, in order.

The way from the text to the fields goes over the tokens. Each part says which tokens it is
printed as; the text is laid out as these tokens, whatever follows, and the production that reads
the part gets it back from them and leaves the tokens behind them alone.
-/

import GoApiDoc.Proofs.Lexing
import GoApiDoc.Proofs.Reading
import GoApiDoc.Proofs.Texts

namespace GoApiDoc.Go

open Text

/-! ### What is printed -/

/-- A name that is no keyword. -/
structure Identifier where
  first : Char
  rest : List Char
  start : isWordStart first
  inside : ∀ char ∈ rest, isWord char
  unreserved : String.ofList (first :: rest) ∉ keywords

/-- The spelling of a name. -/
def Identifier.text (name : Identifier) : String :=
  String.ofList (name.first :: name.rest)

/-- The name of a type, of this package or of another one. -/
inductive TypeName
  | own (name : Identifier)
  | imported (package name : Identifier)

/-- The name without its package. -/
def TypeName.base : TypeName → Identifier
  | .own name => name
  | .imported _ name => name

/-- The type of a name. -/
def TypeName.ref : TypeName → TypeRef
  | .own name => .named name.text
  | .imported package name => .qualified package.text name.text

/-- The length of an array: a constant by its name, or a decimal number. -/
inductive Extent
  | constant (name : TypeName)
  | number (first : Char) (rest : List Char) (start : isAsciiDigit first)
      (inside : ∀ char ∈ rest, isDecimalPart char)

/-- The spelling of a length. -/
def Extent.text : Extent → String
  | .constant name => name.ref.spelling
  | .number first rest _ _ => String.ofList (first :: rest)

/-- A type built from names. -/
inductive PlainType
  | basic (name : TypeName)
  | pointer (element : PlainType)
  | sequence (element : PlainType) (length : Option Extent)
  | mapping (key value : PlainType)

/-- The type as the reader knows it. -/
def PlainType.ref : PlainType → TypeRef
  | .basic name => name.ref
  | .pointer element => .pointer element.ref
  | .sequence element length => .sequence element.ref (length.map Extent.text)
  | .mapping key value => .mapping key.ref value.ref

/-- A tag that a raw literal holds as it is. -/
structure Tag where
  text : String
  unquoted : backquote ∉ text.toList
  kept : '\r' ∉ text.toList

/-- A line of a struct: names that share a type, or an embedded type, which is a name or a pointer
to one. -/
inductive FieldGroup
  | named (first : Identifier) (others : List Identifier) (type : PlainType) (tag : Option Tag)
  | embedded (pointer : Bool) (name : TypeName) (tag : Option Tag)

/-- The embedded type. -/
def embeddedType (pointer : Bool) (name : TypeName) : PlainType :=
  if pointer then .pointer (.basic name) else .basic name

/-- The fields that a line declares. -/
def FieldGroup.fields : FieldGroup → List Field
  | .named first others type tag =>
    (first :: others).map fun name => ⟨name.text, type.ref, tag.map fun tag => tag.text, false⟩
  | .embedded pointer name tag =>
    [⟨name.base.text, (embeddedType pointer name).ref, tag.map fun tag => tag.text, true⟩]

/-! ### The text -/

/-- A tag in backquotes, with a space before it. -/
def tagText : Option Tag → String
  | none => ""
  | some tag => " " ++ String.singleton backquote ++ tag.text ++ String.singleton backquote

/-- A line of a struct without its line break. -/
def FieldGroup.text : FieldGroup → String
  | .named first others type tag =>
    ", ".intercalate ((first :: others).map Identifier.text) ++ " " ++ type.ref.spelling ++
      tagText tag
  | .embedded pointer name tag => (embeddedType pointer name).ref.spelling ++ tagText tag

/-- The lines of a source that declares one struct. -/
def structLines (name : Identifier) (groups : List FieldGroup) : List String :=
  ["package p", "", "type " ++ name.text ++ " struct \x7b"] ++ groups.map FieldGroup.text ++
    ["\x7d"]

/-- The source that declares one struct. -/
def structText (name : Identifier) (groups : List FieldGroup) : String :=
  "\n".intercalate (structLines name groups)

/-! ### The tokens -/

/-- The token that a name is. -/
def Identifier.token (line : Nat) (name : Identifier) : Token :=
  ⟨.ident, name.text, line⟩

/-- A name is no token that is looked for by its spelling. -/
@[simp] theorem Identifier.token_is (line : Nat) (name : Identifier) (text : String) :
    (name.token line).is text = false := by
  simp [Identifier.token, Token.is]

/-- The tokens of the name of a type. -/
def TypeName.tokens (line : Nat) : TypeName → List Token
  | .own name => [name.token line]
  | .imported package name => [package.token line, ⟨.op, ".", line⟩, name.token line]

/-- The tokens of a length. -/
def Extent.tokens (line : Nat) : Extent → List Token
  | .constant name => name.tokens line
  | .number first rest _ _ => [⟨.number, String.ofList (first :: rest), line⟩]

/-- The tokens between the brackets of a sequence. -/
def lengthTokens (line : Nat) : Option Extent → List Token
  | none => []
  | some length => length.tokens line

/-- The tokens of a type. -/
def PlainType.tokens (line : Nat) : PlainType → List Token
  | .basic name => name.tokens line
  | .pointer element => ⟨.op, "*", line⟩ :: element.tokens line
  | .sequence element length =>
    ⟨.op, "[", line⟩ :: (lengthTokens line length ++ ⟨.op, "]", line⟩ :: element.tokens line)
  | .mapping key value =>
    ⟨.keyword, "map", line⟩ :: ⟨.op, "[", line⟩ :: (key.tokens line ++
      ⟨.op, "]", line⟩ :: value.tokens line)

/-- The tokens of names with commas between them. -/
def namesTokens (line : Nat) (first : Identifier) : List Identifier → List Token
  | [] => [first.token line]
  | next :: rest => first.token line :: ⟨.op, ",", line⟩ :: namesTokens line next rest

/-- The literal that a tag is printed as. -/
def Tag.literal (tag : Tag) : String :=
  String.singleton backquote ++ tag.text ++ String.singleton backquote

/-- The token of a tag. -/
def tagTokens (line : Nat) : Option Tag → List Token
  | none => []
  | some tag => [⟨.string, tag.literal, line⟩]

/-- The tokens of a line of a struct. -/
def FieldGroup.tokens (line : Nat) : FieldGroup → List Token
  | .named first others type tag =>
    namesTokens line first others ++ (type.tokens line ++ tagTokens line tag)
  | .embedded pointer name tag => (embeddedType pointer name).tokens line ++ tagTokens line tag

/-- The number of line breaks in a tag. -/
def tagBreaks : Option Tag → Nat
  | none => 0
  | some tag => tag.text.toList.count '\n'

/-- The number of line breaks in a line of a struct, all of them in its tag. -/
def FieldGroup.breaks : FieldGroup → Nat
  | .named _ _ _ tag => tagBreaks tag
  | .embedded _ _ tag => tagBreaks tag

/-- The tokens between the braces of a struct, each line with the semicolon that ends it, and the
closing brace. -/
def bodyTokens (line : Nat) : List FieldGroup → List Token
  | [] => [⟨.op, "\x7d", line⟩, .terminator line]
  | group :: rest =>
    group.tokens line ++ .terminator (line + group.breaks) ::
      bodyTokens (line + group.breaks + 1) rest

/-- The tokens of a source that declares one struct. -/
def structTokens (name : Identifier) (groups : List FieldGroup) : List Token :=
  [⟨.keyword, "package", 1⟩, ⟨.ident, "p", 1⟩, .terminator 1, ⟨.keyword, "type", 3⟩, name.token 3,
    ⟨.keyword, "struct", 3⟩, ⟨.op, "\x7b", 3⟩] ++ bodyTokens 4 groups

/-! ### Laying out the text -/

theorem apart_cons {char : Char} (outside : isWord char = false) (rest : List Char) :
    Apart (char :: rest) := by
  intro other head
  obtain rfl := Option.some.inj head
  exact outside

theorem lays_keyword {ends : Bool} {line : Nat} {word : String} {rest : List Char}
    {tokens : List Token} (reserved : word ∈ keywords) (apart : Apart rest)
    (laid : Lays (Token.endsStatement ⟨.keyword, word, line⟩) line rest tokens) :
    Lays ends line (word.toList ++ rest) (⟨.keyword, word, line⟩ :: tokens) := by
  obtain ⟨first, body, spelled, cut⟩ := nextLexeme_keyword reserved apart
  have text : word = String.ofList (first :: body) := by rw [← spelled, String.ofList_toList]
  rw [spelled, text]
  rw [text] at laid
  exact Lays.token cut laid

theorem nextLexeme_identifier (name : Identifier) {rest : List Char} (apart : Apart rest) :
    nextLexeme name.first (name.rest ++ rest) = .ok (.token .ident, name.rest.length) := by
  have shape : wordShape (name.first :: name.rest) = .token .ident := by
    rw [wordShape, if_neg]
    rw [List.contains_iff_mem]
    exact name.unreserved
  rw [nextLexeme_word name.start name.inside apart, shape]

theorem lays_identifier {ends : Bool} {line : Nat} {rest : List Char} {tokens : List Token}
    (name : Identifier) (apart : Apart rest) (laid : Lays true line rest tokens) :
    Lays ends line (name.text.toList ++ rest) (name.token line :: tokens) := by
  rw [Identifier.text, String.toList_ofList]
  exact Lays.token (nextLexeme_identifier name apart) laid

theorem lays_typeName {ends : Bool} {line : Nat} {rest : List Char} {tokens : List Token}
    (name : TypeName) (apart : Apart rest) (laid : Lays true line rest tokens) :
    Lays ends line (name.ref.spelling.toList ++ rest) (name.tokens line ++ tokens) := by
  cases name with
  | own name => exact lays_identifier name apart laid
  | imported package name =>
    have text : (TypeName.imported package name).ref.spelling.toList ++ rest =
        package.text.toList ++ '.' :: (name.text.toList ++ rest) := by
      simp [TypeName.ref, TypeRef.spelling, String.toList_append]
    have point : nextLexeme '.' (name.text.toList ++ rest) = .ok (.token .op, 0) := by
      rw [Identifier.text, String.toList_ofList]
      exact nextLexeme_point name.start
    rw [text]
    exact lays_identifier package (apart_cons rfl _)
      (Lays.op point (lays_identifier name apart laid))

theorem lays_extent {ends : Bool} {line : Nat} {rest : List Char} {tokens : List Token}
    (length : Extent) (laid : Lays true line (']' :: rest) tokens) :
    Lays ends line (length.text.toList ++ ']' :: rest) (length.tokens line ++ tokens) := by
  cases length with
  | constant name => exact lays_typeName name (apart_cons rfl rest) laid
  | number first digits start inside =>
    rw [Extent.text, String.toList_ofList]
    exact Lays.token (nextLexeme_number start inside rfl) laid

/-- No type is printed with an equals sign in front. -/
theorem spelling_head (type : PlainType) (rest : List Char) :
    (type.ref.spelling.toList ++ rest).head? ≠ some '=' := by
  have letter : ∀ name : Identifier, ∀ rest, (name.text.toList ++ rest).head? ≠ some '=' := by
    intro name rest head
    rw [Identifier.text, String.toList_ofList] at head
    exact ne_of_class name.start '=' rfl (Option.some.inj head)
  cases type with
  | basic name =>
    cases name with
    | own name => exact letter name rest
    | imported package name =>
      have text : (PlainType.basic (.imported package name)).ref.spelling.toList ++ rest =
          package.text.toList ++ ('.' :: (name.text.toList ++ rest)) := by
        simp [PlainType.ref, TypeName.ref, TypeRef.spelling, String.toList_append]
      rw [text]
      exact letter package _
  | pointer element => simp [PlainType.ref, TypeRef.spelling, String.toList_append]
  | sequence element length => simp [PlainType.ref, TypeRef.spelling, String.toList_append]
  | mapping key value => simp [PlainType.ref, TypeRef.spelling, String.toList_append]

theorem lays_type {ends : Bool} {line : Nat} {rest : List Char} {tokens : List Token}
    (type : PlainType) (apart : Apart rest) (laid : Lays true line rest tokens) :
    Lays ends line (type.ref.spelling.toList ++ rest) (type.tokens line ++ tokens) := by
  induction type generalizing ends rest tokens with
  | basic name => exact lays_typeName name apart laid
  | pointer element inductionHypothesis =>
    have text : (PlainType.pointer element).ref.spelling.toList ++ rest =
        '*' :: (element.ref.spelling.toList ++ rest) := by
      simp [PlainType.ref, TypeRef.spelling, String.toList_append]
    rw [text]
    exact Lays.op (nextLexeme_star (spelling_head element rest)) (inductionHypothesis apart laid)
  | sequence element length inductionHypothesis =>
    have behind : Lays true line (']' :: (element.ref.spelling.toList ++ rest))
        (⟨.op, "]", line⟩ :: (element.tokens line ++ tokens)) :=
      Lays.op rfl (inductionHypothesis apart laid)
    have inside : Lays false line
        (((length.map Extent.text).getD "").toList ++ ']' :: (element.ref.spelling.toList ++ rest))
        (lengthTokens line length ++ ⟨.op, "]", line⟩ :: (element.tokens line ++ tokens)) := by
      cases length with
      | none => exact Lays.op rfl (inductionHypothesis apart laid)
      | some length => exact lays_extent length behind
    have text : (PlainType.sequence element length).ref.spelling.toList ++ rest =
        '[' :: (((length.map Extent.text).getD "").toList ++
          ']' :: (element.ref.spelling.toList ++ rest)) := by
      simp [PlainType.ref, TypeRef.spelling, String.toList_append]
    rw [text, PlainType.tokens, List.cons_append, List.append_assoc, List.cons_append]
    exact Lays.op rfl inside
  | mapping key value keyHypothesis valueHypothesis =>
    have text : (PlainType.mapping key value).ref.spelling.toList ++ rest =
        "map".toList ++ '[' :: (key.ref.spelling.toList ++
          ']' :: (value.ref.spelling.toList ++ rest)) := by
      simp [PlainType.ref, TypeRef.spelling, String.toList_append]
    have behind : Lays true line (']' :: (value.ref.spelling.toList ++ rest))
        (⟨.op, "]", line⟩ :: (value.tokens line ++ tokens)) :=
      Lays.op rfl (valueHypothesis apart laid)
    have tokens_eq : (PlainType.mapping key value).tokens line ++ tokens =
        ⟨.keyword, "map", line⟩ :: ⟨.op, "[", line⟩ :: (key.tokens line ++
          ⟨.op, "]", line⟩ :: (value.tokens line ++ tokens)) := by
      simp [PlainType.tokens]
    rw [text, tokens_eq]
    exact lays_keyword (by decide) (apart_cons rfl _)
      (Lays.op rfl (keyHypothesis (apart_cons rfl _) behind))

theorem lays_names {ends : Bool} {line : Nat} {rest : List Char} {tokens : List Token}
    (first : Identifier) (others : List Identifier) (apart : Apart rest)
    (laid : Lays true line rest tokens) :
    Lays ends line ((", ".intercalate ((first :: others).map Identifier.text)).toList ++ rest)
      (namesTokens line first others ++ tokens) := by
  induction others generalizing ends first with
  | nil =>
    rw [List.map_singleton, String.intercalate_singleton]
    exact lays_identifier first apart laid
  | cons next others inductionHypothesis =>
    have text : (", ".intercalate ((first :: next :: others).map Identifier.text)).toList ++ rest =
        first.text.toList ++ ',' :: ' ' ::
          ((", ".intercalate ((next :: others).map Identifier.text)).toList ++ rest) := by
      rw [List.map_cons, List.map_cons, String.intercalate_cons_cons]
      simp [String.toList_append]
    rw [text]
    exact lays_identifier first (apart_cons rfl _)
      (Lays.op rfl (Lays.space (inductionHypothesis next)))

theorem toList_literal (tag : Tag) :
    tag.literal.toList = backquote :: (tag.text.toList ++ [backquote]) := by
  simp [Tag.literal, String.toList_append]

/-- A tag is one token, and the lines count on over the line breaks in it. -/
theorem lays_tag {line : Nat} {rest : List Char} {tokens : List Token} (tag : Option Tag)
    (laid : Lays true (line + tagBreaks tag) rest tokens) :
    Lays true line ((tagText tag).toList ++ rest) (tagTokens line tag ++ tokens) := by
  cases tag with
  | none => exact laid
  | some tag =>
    have text : (tagText (some tag)).toList ++ rest =
        ' ' :: backquote :: ((tag.text.toList ++ [backquote]) ++ rest) := by
      simp [tagText, String.toList_append]
    have cut : nextLexeme backquote ((tag.text.toList ++ [backquote]) ++ rest) =
        .ok (.token .string, (tag.text.toList ++ [backquote]).length) := by
      rw [List.append_assoc, List.length_append]
      exact nextLexeme_raw tag.unquoted
    have literal : tag.literal = String.ofList (backquote :: (tag.text.toList ++ [backquote])) := by
      rw [← toList_literal, String.ofList_toList]
    have breaks : Lexeme.lineBreaks
        ⟨.token .string, backquote :: (tag.text.toList ++ [backquote]), line⟩ =
          tag.text.toList.count '\n' := by
      simp [Lexeme.lineBreaks, List.count_append, backquote]
    rw [text, tagTokens, literal]
    refine Lays.space (Lays.token cut ?_)
    rw [breaks]
    exact laid

theorem apart_tagText (tag : Option Tag) {rest : List Char} (apart : Apart rest) :
    Apart ((tagText tag).toList ++ rest) := by
  cases tag with
  | none => exact apart
  | some tag =>
    have text : ∃ tail, (tagText (some tag)).toList ++ rest = ' ' :: tail := by
      simp [tagText, String.toList_append]
    obtain ⟨tail, text⟩ := text
    rw [text]
    exact apart_cons rfl tail

theorem lays_group {ends : Bool} {line : Nat} {rest : List Char} {tokens : List Token}
    (group : FieldGroup) (apart : Apart rest)
    (laid : Lays true (line + group.breaks) rest tokens) :
    Lays ends line (group.text.toList ++ rest) (group.tokens line ++ tokens) := by
  cases group with
  | named first others type tag =>
    have text : (FieldGroup.named first others type tag).text.toList ++ rest =
        (", ".intercalate ((first :: others).map Identifier.text)).toList ++
          ' ' :: (type.ref.spelling.toList ++ ((tagText tag).toList ++ rest)) := by
      simp [FieldGroup.text, String.toList_append]
    rw [text, FieldGroup.tokens, List.append_assoc, List.append_assoc]
    exact lays_names first others (apart_cons rfl _)
      (Lays.space (lays_type type (apart_tagText tag apart) (lays_tag tag laid)))
  | embedded pointer name tag =>
    rw [FieldGroup.text, String.toList_append, FieldGroup.tokens, List.append_assoc,
      List.append_assoc]
    exact lays_type _ (apart_tagText tag apart) (lays_tag tag laid)

/-- The lines from the first field on, down to the closing brace. -/
def bodyText (groups : List FieldGroup) : String :=
  "\n".intercalate (groups.map FieldGroup.text ++ ["\x7d"])

theorem intercalate_cons_body (line : String) (groups : List FieldGroup) :
    "\n".intercalate (line :: (groups.map FieldGroup.text ++ ["\x7d"])) =
      line ++ "\n" ++ bodyText groups := by
  cases groups with
  | nil => exact String.intercalate_cons_cons
  | cons group groups => exact String.intercalate_cons_cons

section Ending

variable {ending : List Char} (finish : ∀ line, Lays true line ending [.terminator line])

include finish

theorem lays_body (line : Nat) (groups : List FieldGroup) :
    Lays false line ((bodyText groups).toList ++ ending) (bodyTokens line groups) := by
  induction groups generalizing line with
  | nil =>
    have text : bodyText [] = "\x7d" := String.intercalate_singleton
    rw [text]
    exact Lays.op rfl (finish line)
  | cons group groups inductionHypothesis =>
    have text : bodyText (group :: groups) = group.text ++ "\n" ++ bodyText groups :=
      intercalate_cons_body group.text groups
    have behind : (bodyText (group :: groups)).toList ++ ending =
        group.text.toList ++ '\n' :: ((bodyText groups).toList ++ ending) := by
      rw [text]
      simp [String.toList_append]
    rw [behind]
    exact lays_group group (apart_cons rfl _) (Lays.newline (inductionHypothesis _))

theorem lays_struct (name : Identifier) (groups : List FieldGroup) :
    Lays false 1 ((structText name groups).toList ++ ending) (structTokens name groups) := by
  have text : (structText name groups).toList ++ ending =
      "package".toList ++ ' ' :: 'p' :: '\n' :: '\n' :: ("type".toList ++ ' ' ::
        (name.text.toList ++ ' ' :: ("struct".toList ++ ' ' :: '\x7b' :: '\n' ::
          ((bodyText groups).toList ++ ending)))) := by
    have lines : structLines name groups = "package p" :: "" ::
        ("type " ++ name.text ++ " struct \x7b") :: (groups.map FieldGroup.text ++ ["\x7d"]) := rfl
    rw [structText, lines, String.intercalate_cons_cons, String.intercalate_cons_cons,
      intercalate_cons_body]
    simp [String.toList_append]
  have body : Lays false 3 ('\n' :: ((bodyText groups).toList ++ ending)) (bodyTokens 4 groups) :=
    Lays.newline (lays_body finish 4 groups)
  have head : Lays false 3 ("type".toList ++ ' ' :: (name.text.toList ++ ' ' ::
      ("struct".toList ++ ' ' :: '\x7b' :: '\n' :: ((bodyText groups).toList ++ ending))))
      (⟨.keyword, "type", 3⟩ :: name.token 3 :: ⟨.keyword, "struct", 3⟩ :: ⟨.op, "\x7b", 3⟩ ::
        bodyTokens 4 groups) :=
    lays_keyword (by decide) (apart_cons rfl _) (Lays.space (lays_identifier name (apart_cons rfl _)
      (Lays.space (lays_keyword (by decide) (apart_cons rfl _) (Lays.space (Lays.op rfl body))))))
  rw [text]
  exact lays_keyword (by decide) (apart_cons rfl _) (Lays.space
    (lays_identifier ⟨'p', [], by decide, by simp, by decide⟩ (apart_cons rfl _)
      (Lays.newline (Lays.newline head))))

end Ending

/-! ### Reading types back -/

theorem typeRef_pointer {star : Token} {rest : List Token} {element : TypeRef} {used : Nat}
    (kind : star.kind = .op) (text : star.text = "*")
    (inner : typeRef rest = .ok (element, used)) :
    typeRef (star :: rest) = .ok (.pointer element, used + 1) := by
  rw [typeRef.eq_def]
  simp only [kind, text, if_true, inner]
  rfl

theorem typeRef_sequence {opener : Token} {rest length : List Token} {element : TypeRef}
    {used : Nat} (kind : opener.kind = .op) (text : opener.text = "[")
    (run : (rest.takeWhile fun token => !token.is "]") = length)
    (closed : length.length ≠ rest.length)
    (inner : typeRef (rest.drop (length.length + 1)) = .ok (element, used)) :
    typeRef (opener :: rest) =
      .ok (.sequence element (if length.isEmpty then none else some (Token.join length)),
        length.length + used + 2) := by
  rw [typeRef.eq_def]
  simp only [kind, text, run, if_neg closed, inner]
  rfl

theorem typeRef_mapping {keyword : Token} {rest : List Token} {key value : TypeRef}
    {keyUsed valueUsed : Nat} (kind : keyword.kind = .keyword) (text : keyword.text = "map")
    (opened : nextIs "[" rest) (first : typeRef (rest.drop 1) = .ok (key, keyUsed))
    (closed : nextIs "]" (rest.drop (keyUsed + 1)))
    (second : typeRef (rest.drop (keyUsed + 2)) = .ok (value, valueUsed)) :
    typeRef (keyword :: rest) = .ok (.mapping key value, keyUsed + valueUsed + 3) := by
  rw [typeRef.eq_def]
  simp only [kind, text, if_true, bind_eq_ok, expect_eq_ok, first, opened, pure_eq_ok,
    Except.ok.injEq]
  exact ⟨(), trivial, (key, keyUsed), rfl, (), closed, (value, valueUsed), second, rfl⟩

theorem typeRef_typeName (line : Nat) (name : TypeName) {rest : List Token}
    (unopened : nextIs "[" rest = false) (unqualified : nextIs "." rest = false) :
    typeRef (name.tokens line ++ rest) = .ok (name.ref, (name.tokens line).length) := by
  cases name with
  | own name =>
    cases rest with
    | nil =>
      simp [TypeName.tokens, Identifier.token, typeRef, TypeName.ref, nextIs, pure, Except.pure]
    | cons next tail =>
      cases tail with
      | nil =>
        simp [TypeName.tokens, Identifier.token, typeRef, TypeName.ref, unopened, pure, Except.pure]
      | cons after tail =>
        rw [nextIs] at unqualified
        simp [TypeName.tokens, Identifier.token, typeRef, TypeName.ref, unopened, unqualified, pure,
          Except.pure]
  | imported package name =>
    simp [TypeName.tokens, Identifier.token, typeRef, TypeName.ref, unopened, Token.is, pure,
      Except.pure]

/-- The tokens of a length hold no closing bracket, so the reader takes all of them. -/
theorem takeWhile_lengthTokens (line : Nat) (length : Option Extent) (rest : List Token) :
    ((lengthTokens line length ++ ⟨.op, "]", line⟩ :: rest).takeWhile fun token => !token.is "]") =
      lengthTokens line length := by
  cases length with
  | none => simp [lengthTokens, Token.is]
  | some length =>
    cases length with
    | constant name =>
      cases name with
      | own name => simp [lengthTokens, Extent.tokens, TypeName.tokens, Identifier.token, Token.is]
      | imported package name =>
        simp [lengthTokens, Extent.tokens, TypeName.tokens, Identifier.token, Token.is]
    | number first digits start inside => simp [lengthTokens, Extent.tokens, Token.is]

theorem join_extent (line : Nat) (length : Extent) :
    Token.join (length.tokens line) = length.text := by
  cases length with
  | constant name =>
    cases name with
    | own name =>
      simp [Extent.tokens, TypeName.tokens, Identifier.token, Token.join, Token.joinAfter,
        Extent.text, TypeName.ref, TypeRef.spelling]
    | imported package name =>
      simp [Extent.tokens, TypeName.tokens, Identifier.token, Token.join, Token.joinAfter,
        Extent.text, TypeName.ref, TypeRef.spelling, Token.isWord, String.append_assoc]
  | number first digits start inside =>
    simp [Extent.tokens, Token.join, Token.joinAfter, Extent.text]

theorem extent_ne_nil (line : Nat) (length : Extent) : length.tokens line ≠ [] := by
  cases length with
  | constant name =>
    cases name with
    | own name => simp [Extent.tokens, TypeName.tokens]
    | imported package name => simp [Extent.tokens, TypeName.tokens]
  | number first digits start inside => simp [Extent.tokens]

theorem spelling_lengthTokens (line : Nat) (length : Option Extent) :
    (if (lengthTokens line length).isEmpty then none
      else some (Token.join (lengthTokens line length))) = length.map Extent.text := by
  cases length with
  | none => rfl
  | some length =>
    rw [lengthTokens, if_neg, join_extent, Option.map_some]
    rw [List.isEmpty_iff]
    exact extent_ne_nil line length

/-- A type is read back from its tokens, and no token behind them is used. -/
theorem typeRef_tokens (line : Nat) (type : PlainType) {rest : List Token}
    (unopened : nextIs "[" rest = false) (unqualified : nextIs "." rest = false) :
    typeRef (type.tokens line ++ rest) = .ok (type.ref, (type.tokens line).length) := by
  induction type generalizing rest with
  | basic name => exact typeRef_typeName line name unopened unqualified
  | pointer element inductionHypothesis =>
    exact typeRef_pointer rfl rfl (inductionHypothesis unopened unqualified)
  | sequence element length inductionHypothesis =>
    have inner := inductionHypothesis unopened unqualified
    have tokens_eq : (PlainType.sequence element length).tokens line ++ rest =
        ⟨.op, "[", line⟩ :: (lengthTokens line length ++
          ⟨.op, "]", line⟩ :: (element.tokens line ++ rest)) := by
      simp [PlainType.tokens]
    have length_eq : ((PlainType.sequence element length).tokens line).length =
        (lengthTokens line length).length + (element.tokens line).length + 2 := by
      simp only [PlainType.tokens, List.length_cons, List.length_append]
      omega
    rw [tokens_eq, length_eq, PlainType.ref, ← spelling_lengthTokens line length]
    refine typeRef_sequence rfl rfl (takeWhile_lengthTokens line length _) ?_ ?_
    · simp
    · rw [List.drop_length_add_append]
      exact inner
  | mapping key value keyHypothesis valueHypothesis =>
    have closing : ∀ text, text ≠ "]" →
        nextIs text (⟨.op, "]", line⟩ :: (value.tokens line ++ rest)) = false := by
      intro text other
      simp [nextIs, Token.is, Ne.symm other]
    have first := keyHypothesis (closing "[" (by decide)) (closing "." (by decide))
    have second := valueHypothesis unopened unqualified
    have tokens_eq : (PlainType.mapping key value).tokens line ++ rest =
        ⟨.keyword, "map", line⟩ :: ⟨.op, "[", line⟩ :: (key.tokens line ++
          ⟨.op, "]", line⟩ :: (value.tokens line ++ rest)) := by
      simp [PlainType.tokens]
    have length_eq : ((PlainType.mapping key value).tokens line).length =
        (key.tokens line).length + (value.tokens line).length + 3 := by
      simp only [PlainType.tokens, List.length_cons, List.length_append]
      omega
    rw [tokens_eq, length_eq]
    refine typeRef_mapping rfl rfl rfl first ?_ ?_
    · rw [List.drop_succ_cons, List.drop_left]
      rfl
    · rw [List.drop_succ_cons, List.drop_length_add_append]
      exact second

/-! ### Reading fields back -/

/-- A tag in backquotes is the tag again: it holds nothing that a raw literal drops. -/
theorem unquote_literal (tag : Tag) : unquote tag.literal = .ok tag.text := by
  have kept : tag.text.toList.filter (· ≠ '\r') = tag.text.toList := by
    rw [List.filter_eq_self]
    intro char member
    rw [decide_eq_true_eq]
    rintro rfl
    exact tag.kept member
  have points : unquoteList tag.literal.toList = .ok (tag.text.toList.map .char) := by
    rw [toList_literal, unquoteList, enclosed_concat, if_pos rfl]
    exact congrArg (Except.ok ∘ List.map Point.char) kept
  rw [unquote, points, Except.map, Text.ofPoints_map_char, String.ofList_toList]

theorem fieldTag_tokens (line last : Nat) (tag : Option Tag) (rest : List Token) :
    fieldTag (tagTokens line tag ++ .terminator last :: rest) =
      .ok (tag.map fun tag => tag.text, (tagTokens line tag).length) := by
  cases tag with
  | none => rfl
  | some tag => simp [tagTokens, fieldTag, unquote_literal]

theorem identifierList_tokens (line : Nat) (first : Identifier) (others : List Identifier)
    {rest : List Token} (ends : nextIs "," rest = false) :
    identifierList (namesTokens line first others ++ rest) =
      .ok ((first :: others).map Identifier.text, (namesTokens line first others).length) := by
  induction others generalizing first with
  | nil =>
    cases rest with
    | nil => rfl
    | cons next tail =>
      rw [nextIs] at ends
      simp [namesTokens, identifierList, Identifier.token, ends]
  | cons next others inductionHypothesis =>
    simp [namesTokens, identifierList, Identifier.token, Token.is, inductionHypothesis, bind,
      Except.bind, pure, Except.pure]

/-- A name is not spelled like an operator of one character. -/
theorem Identifier.text_ne (name : Identifier) (char : Char) (outside : isWordStart char = false) :
    name.text ≠ String.singleton char := by
  intro same
  have chars := congrArg String.toList same
  rw [Identifier.text, String.toList_ofList, String.toList_singleton, List.cons.injEq] at chars
  exact ne_of_class name.start char outside chars.1

/-- The first token of a type tells a named field from an embedded one. -/
theorem type_head (line : Nat) (type : PlainType) :
    ∃ token tail, type.tokens line = token :: tail ∧ token.is "," = false ∧
      token.kind ≠ .semicolon ∧ token.kind ≠ .string ∧ token.text ≠ "\x7d" ∧ token.text ≠ "." := by
  have letter : ∀ name : Identifier, name.text ≠ "\x7d" ∧ name.text ≠ "." :=
    fun name => ⟨name.text_ne '\x7d' rfl, name.text_ne '.' rfl⟩
  cases type with
  | basic name =>
    cases name with
    | own name =>
      exact ⟨_, _, rfl, name.token_is line _, by simp [Identifier.token],
        by simp [Identifier.token], (letter name).1, (letter name).2⟩
    | imported package name =>
      exact ⟨_, _, rfl, package.token_is line _, by simp [Identifier.token],
        by simp [Identifier.token], (letter package).1, (letter package).2⟩
  | pointer element => exact ⟨_, _, rfl, by simp [Token.is], by simp, by simp, by simp, by simp⟩
  | sequence element length =>
    exact ⟨_, _, rfl, by simp [Token.is], by simp, by simp, by simp, by simp⟩
  | mapping key value => exact ⟨_, _, rfl, by simp [Token.is], by simp, by simp, by simp, by simp⟩

theorem startsEmbedded_named (line : Nat) (first : Identifier) (others : List Identifier)
    (type : PlainType) (rest : List Token) :
    startsEmbedded (namesTokens line first others ++ (type.tokens line ++ rest)) = false := by
  obtain ⟨token, tail, tokens_eq, -, semicolon, string, brace, point⟩ := type_head line type
  cases others with
  | nil =>
    simp [namesTokens, tokens_eq, startsEmbedded, nextIs, Identifier.token, Token.is, semicolon,
      string, brace, point]
  | cons next others => simp [namesTokens, startsEmbedded, nextIs, Identifier.token, Token.is]

theorem startsEmbedded_embedded (line last : Nat) (pointer : Bool) (name : TypeName)
    (tag : Option Tag) (rest : List Token) :
    startsEmbedded ((embeddedType pointer name).tokens line ++
      (tagTokens line tag ++ .terminator last :: rest)) = true := by
  cases pointer with
  | true => rfl
  | false =>
    cases name with
    | own name =>
      cases tag with
      | none =>
        simp [embeddedType, PlainType.tokens, TypeName.tokens, tagTokens, startsEmbedded,
          Identifier.token, Token.terminator]
      | some tag =>
        simp [embeddedType, PlainType.tokens, TypeName.tokens, tagTokens, startsEmbedded,
          Identifier.token]
    | imported package name =>
      simp [embeddedType, PlainType.tokens, TypeName.tokens, startsEmbedded, Identifier.token]

theorem embeddedName_embeddedType (pointer : Bool) (name : TypeName) :
    embeddedName (embeddedType pointer name).ref = name.base.text := by
  cases pointer with
  | true =>
    cases name with
    | own name => rfl
    | imported package name => rfl
  | false =>
    cases name with
    | own name => rfl
    | imported package name => rfl

/-- What stands behind the type of a field is neither a bracket nor a point. -/
theorem nextIs_behind_type (line last : Nat) (tag : Option Tag) (rest : List Token) (text : String)
    (other : text ≠ ";") :
    nextIs text (tagTokens line tag ++ .terminator last :: rest) = false := by
  cases tag with
  | none => simp [tagTokens, nextIs, Token.terminator, Token.is, Ne.symm other]
  | some tag => simp [tagTokens, nextIs, Token.is]

theorem fieldDeclaration_tokens (line last : Nat) (group : FieldGroup) (rest : List Token) :
    fieldDeclaration (group.tokens line ++ .terminator last :: rest) =
      .ok (group.fields, (group.tokens line).length) := by
  have behind := fun tag => nextIs_behind_type line last tag rest
  cases group with
  | named first others type tag =>
    have typed := typeRef_tokens line type (behind tag "[" (by decide)) (behind tag "." (by decide))
    obtain ⟨token, tail, tokens_eq, comma, -⟩ := type_head line type
    have ends : nextIs "," (type.tokens line ++ (tagTokens line tag ++ .terminator last :: rest)) =
        false := by
      rw [tokens_eq]
      exact comma
    have names := identifierList_tokens line first others ends
    have named := startsEmbedded_named line first others type
      (tagTokens line tag ++ .terminator last :: rest)
    rw [FieldGroup.tokens, List.append_assoc, List.append_assoc, fieldDeclaration, named,
      if_neg Bool.false_ne_true, names]
    simp only [bind, Except.bind, List.drop_left, typed, List.drop_length_add_append,
      fieldTag_tokens, pure, Except.pure, FieldGroup.fields, List.length_append, List.map_map,
      Function.comp_def, Nat.add_assoc]
  | embedded pointer name tag =>
    have typed := typeRef_tokens line (embeddedType pointer name) (behind tag "[" (by decide))
      (behind tag "." (by decide))
    rw [FieldGroup.tokens, List.append_assoc, fieldDeclaration,
      if_pos (startsEmbedded_embedded line last pointer name tag rest), typed]
    simp only [bind, Except.bind, List.drop_left, fieldTag_tokens, embeddedName_embeddedType, pure,
      Except.pure, FieldGroup.fields, List.length_append]

/-- A semicolon between items is passed over. -/
theorem itemsUntil_separator {Item : Type} {closer : String} {unclosed : ReadFault}
    {item : List Token → Except ReadFault (List Item × Nat)} {separator : Token}
    {more : List Token} {others : List Item} {othersUsed : Nat} (separates : separator.is ";")
    (unclosing : separator.is closer = false)
    (readOthers : itemsUntil closer unclosed item more = .ok (others, othersUsed)) :
    itemsUntil closer unclosed item (separator :: more) = .ok (others, othersUsed + 1) := by
  rw [itemsUntil, if_neg (ne_true_of_eq_false unclosing), if_pos separates, readOthers]
  rfl

/-- An item that the end of the list or a semicolon follows, before the rest of the list. -/
theorem itemsUntil_item {Item : Type} {closer : String} {unclosed : ReadFault}
    {item : List Token → Except ReadFault (List Item × Nat)} {token : Token}
    {tail after : List Token} {own others : List Item} {used othersUsed : Nat}
    (goesOn : token.is closer = false) (starts : token.is ";" = false)
    (read : item (token :: tail) = .ok (own, used + 1)) (behind : tail.drop used = after)
    (ends : nextIs closer after ∨ nextIs ";" after)
    (readOthers : itemsUntil closer unclosed item after = .ok (others, othersUsed)) :
    itemsUntil closer unclosed item (token :: tail) =
      .ok (own ++ others, used + 1 + othersUsed) := by
  rw [itemsUntil, if_neg (ne_true_of_eq_false goesOn), if_neg (ne_true_of_eq_false starts), read]
  simp only [bind, Except.bind, Nat.add_sub_cancel, behind, readOthers]
  by_cases closes : nextIs closer after
  · simp [closes, pure, Except.pure]
  · have separates : nextIs ";" after := ends.resolve_left closes
    simp [closes, expect, separates, pure, Except.pure]

/-- A line of a struct starts neither with its end nor with a semicolon. -/
theorem group_head (line : Nat) (group : FieldGroup) :
    ∃ token tail, group.tokens line = token :: tail ∧ token.is "\x7d" = false ∧
      token.is ";" = false := by
  cases group with
  | named first others type tag =>
    cases others with
    | nil => exact ⟨_, _, rfl, first.token_is line _, first.token_is line _⟩
    | cons next others => exact ⟨_, _, rfl, first.token_is line _, first.token_is line _⟩
  | embedded pointer name tag =>
    cases pointer with
    | true => exact ⟨_, _, rfl, by simp [Token.is], by simp [Token.is]⟩
    | false =>
      cases name with
      | own name => exact ⟨_, _, rfl, name.token_is line _, name.token_is line _⟩
      | imported package name =>
        exact ⟨_, _, rfl, package.token_is line _, package.token_is line _⟩

/-- The lines of a struct are read back one after the other; what is left is the semicolon behind
the closing brace. -/
theorem fieldLines_tokens (line : Nat) (groups : List FieldGroup) :
    ∃ used last,
      fieldLines (bodyTokens line groups) = .ok (groups.flatMap FieldGroup.fields, used) ∧
      (bodyTokens line groups).drop used = [.terminator last] := by
  induction groups generalizing line with
  | nil =>
    refine ⟨1, line, ?_, rfl⟩
    rw [bodyTokens, fieldLines, itemsUntil]
    rfl
  | cons group groups inductionHypothesis =>
    obtain ⟨used, last, readOthers, left⟩ := inductionHypothesis (line + group.breaks + 1)
    obtain ⟨token, tail, tokens_eq, goesOn, starts⟩ := group_head line group
    have read := fieldDeclaration_tokens line (line + group.breaks) group
      (bodyTokens (line + group.breaks + 1) groups)
    rw [tokens_eq] at read
    refine ⟨tail.length + 1 + (used + 1), last, ?_, ?_⟩
    · rw [bodyTokens, tokens_eq, List.cons_append]
      exact itemsUntil_item goesOn starts read List.drop_left (Or.inr rfl)
        (itemsUntil_separator rfl rfl readOthers)
    · rw [bodyTokens, ← List.length_cons (a := token), ← tokens_eq, List.drop_length_add_append]
      exact left

/-! ### Reading the source back -/

/-- The declaration that the source of a struct holds. -/
def structDeclaration (name : Identifier) (groups : List FieldGroup) : TypeDeclaration :=
  { name := name.text, fields := some (groups.flatMap FieldGroup.fields), line := 3 }

theorem typeSpec_struct (name : Identifier) {body : List Token} {fields : List Field} {used : Nat}
    (read : fieldLines body = .ok (fields, used)) :
    typeSpec "" "" (name.token 3 :: ⟨.keyword, "struct", 3⟩ :: ⟨.op, "\x7b", 3⟩ :: body) =
      .ok ({ name := name.text, fields := some fields, line := 3 }, used + 3) := by
  have parameters : skipTypeParameters (⟨.keyword, "struct", 3⟩ :: ⟨.op, "\x7b", 3⟩ :: body) =
      .ok 0 := by
    rw [skipTypeParameters, if_neg]
    cases body with
    | nil => simp [opensTypeParameters]
    | cons next rest => simp [opensTypeParameters, Token.is]
  have braces : structFields (⟨.op, "\x7b", 3⟩ :: body) = .ok (fields, used + 1) := by
    rw [structFields, bind_eq_ok]
    refine ⟨(), rfl, ?_⟩
    rw [bind_eq_ok]
    exact ⟨(fields, used), read, rfl⟩
  have struct : typeBody (⟨.keyword, "struct", 3⟩ :: ⟨.op, "\x7b", 3⟩ :: body) =
      .ok ((some fields, none), used + 2) := by
    rw [typeBody, if_pos (by simp [nextIs, Token.is]), bind_eq_ok]
    exact ⟨(fields, used + 1), braces, rfl⟩
  rw [typeSpec, bind_eq_ok]
  refine ⟨name.token 3, rfl, ?_⟩
  rw [bind_eq_ok]
  refine ⟨0, parameters, ?_⟩
  rw [bind_eq_ok]
  refine ⟨((some fields, none), used + 2), struct, ?_⟩
  rw [pure_eq_ok, Nat.add_comm _ (used + 2)]
  rfl

/-- Behind a declaration that a semicolon ends the rest of the source is read by itself. -/
theorem declarations_behind {docs : Docs} {token : Token} {rest more : List Token} {line used : Nat}
    {own : List Declaration} (starts : token.kind ≠ .semicolon)
    (read : topLevel docs token rest = .ok (own, used + 1))
    (behind : rest.drop used = .terminator line :: more) :
    declarations docs (token :: rest) = (declarations docs more).map (own ++ ·) := by
  have passed : declarations docs (.terminator line :: more) = declarations docs more := by
    rw [declarations, if_pos (show (Token.terminator line).kind = .semicolon from rfl)]
  have ended : expect ";" (.terminator line :: more) = .ok () := expect_eq_ok.mpr rfl
  rw [declarations, if_neg starts, read]
  simp only [bind, Except.bind, Nat.add_sub_cancel, behind, ended, passed]
  cases declarations docs more <;> rfl

/-- The package clause declares nothing. -/
theorem declarations_package (docs : Docs) (line : Nat) (more : List Token) :
    declarations docs (⟨.keyword, "package", line⟩ :: ⟨.ident, "p", line⟩ :: .terminator line ::
      more) = declarations docs more := by
  have clause : topLevel docs ⟨.keyword, "package", line⟩
      (⟨.ident, "p", line⟩ :: .terminator line :: more) = .ok ([], 1 + 1) :=
    TopForm.read rfl (.package rfl rfl rfl)
  rw [declarations_behind (by simp) clause rfl]
  cases declarations docs more <;> rfl

/-- A source that is a package clause and one type declaration. -/
theorem declarations_type {line last used : Nat} {tokens : List Token}
    {declaration : TypeDeclaration} (alone : nextIs "(" tokens = false)
    (read : typeSpec "" "" tokens = .ok (declaration, used))
    (left : tokens.drop used = [.terminator last]) :
    declarations [] ([⟨.keyword, "package", 1⟩, ⟨.ident, "p", 1⟩, .terminator 1,
      ⟨.keyword, "type", line⟩] ++ tokens) = .ok [.type declaration] := by
  have type : topLevel [] ⟨.keyword, "type", line⟩ tokens =
      .ok ([.type declaration], used + 1) :=
    TopForm.read rfl (.type rfl (@typeDeclaration_alone [] _ _ _ _ alone read))
  have finish : declarations [] [] = .ok [] := by rw [declarations]
  simp only [List.cons_append, List.nil_append]
  rw [declarations_package, declarations_behind (by simp) type left, finish]
  rfl

theorem declarations_struct (name : Identifier) (groups : List FieldGroup) :
    declarations [] (structTokens name groups) = .ok [.type (structDeclaration name groups)] := by
  obtain ⟨used, last, readFields, left⟩ := fieldLines_tokens 4 groups
  exact declarations_type (name.token_is 3 _) (typeSpec_struct name readFields) left

/-- Reading undoes printing: the source of a struct, with or without a line break at its end, is
read as one type declaration with the fields of its groups in order. -/
theorem readSource_structText (name : Identifier) (groups : List FieldGroup) :
    readSource (structText name groups) = .ok [.type (structDeclaration name groups)] ∧
      readSource (structText name groups ++ "\n") =
        .ok [.type (structDeclaration name groups)] := by
  have read : ∀ ending : String, (∀ line, Lays true line ending.toList [.terminator line]) →
      readSource (structText name groups ++ ending) =
        .ok [.type (structDeclaration name groups)] := by
    intro ending finish
    have laid := lays_struct finish name groups
    rw [← String.toList_append] at laid
    exact readSource_eq_ok.mpr ⟨_, layoutOf_of_lays laid, declarations_struct name groups⟩
  constructor
  · rw [← String.append_empty (s := structText name groups)]
    exact read "" fun line => Lays.nil true line
  · exact read "\n" fun line => Lays.newline (Lays.nil false (line + 1))

end GoApiDoc.Go
