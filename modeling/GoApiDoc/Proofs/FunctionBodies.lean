/-
This file says that the body of a function does not show. The reader passes over it by counting
brackets, so two bodies whose brackets are balanced are the same to it; what a body could still do
to the text behind it is to move its lines or to leave a comment in its way. A function whose body
holds no comment is read as its name, whatever the body, and the text behind it is read as by
itself, as many lines further down as the function takes. So two bodies that take equally many
lines cannot be told apart, neither by the declarations nor by the fault of what follows.

Braces in strings and runes are part of those tokens, and the lexer ends the last token of a body
in front of the closing brace as it ends it where nothing follows.
-/

import GoApiDoc.Proofs.Locality
import GoApiDoc.Proofs.StructText

namespace GoApiDoc.Go

/-! ### What is printed -/

/-- A text that can stand between the braces of a function: it has no comment, and its brackets are
balanced. -/
structure FunctionBody where
  text : String
  layout : Layout
  laid : layoutOf text = .ok layout
  uncommented : layout.comments = []
  balanced : Balanced layout.tokens

/-- The source of a function with this body, down to the line break behind its closing brace. -/
def FunctionBody.function (body : FunctionBody) : String :=
  "package p\nfunc f() \x7b" ++ body.text ++ "\x7d\n"

/-! ### Text without comments -/

/-- A lexeme that is no comment. -/
def Lexeme.Uncommented (lexeme : Lexeme) : Prop :=
  lexeme.shape ≠ .lineComment ∧ lexeme.shape ≠ .blockComment

theorem uncommented_of_arrange {ends : Bool} {tokenLine line : Nat} {lexemes : List Lexeme}
    (none : (Layout.arrange ends tokenLine line lexemes).comments = []) :
    ∀ lexeme ∈ lexemes, lexeme.Uncommented := by
  induction lexemes generalizing ends tokenLine line with
  | nil => exact List.forall_mem_nil _
  | cons lexeme rest inductionHypothesis =>
    rw [Layout.arrange] at none
    rw [List.forall_mem_cons, Lexeme.Uncommented]
    split at none
    · next shape => exact ⟨by simp [shape], inductionHypothesis none⟩
    · next shape =>
      rw [Layout.comments_endingStatement] at none
      exact ⟨by simp [shape], inductionHypothesis none⟩
    · exact absurd none (List.cons_ne_nil _ _)
    · exact absurd none (List.cons_ne_nil _ _)
    · next kind shape => exact ⟨by simp [shape], inductionHypothesis none⟩

/-- Lexemes without a comment give their tokens, and what stands behind them is arranged by itself.
Whether a statement could end there is all that is passed on to it. -/
theorem arrange_uncommented {ends : Bool} {line : Nat} {lexemes : List Lexeme}
    (follow : Follow line lexemes) (uncommented : ∀ lexeme ∈ lexemes, lexeme.Uncommented) :
    ∃ inner reached, ∀ behind tokens,
      (∀ tokenLine, Layout.arrange reached tokenLine (line + lineBreaks lexemes) behind =
        ⟨tokens, []⟩) →
      ∀ tokenLine, Layout.arrange ends tokenLine line (lexemes ++ behind) =
        ⟨inner ++ tokens, []⟩ := by
  induction lexemes generalizing ends line with
  | nil => exact ⟨[], ends, fun behind tokens arranged => arranged⟩
  | cons lexeme rest inductionHypothesis =>
    obtain ⟨rfl, followRest⟩ := follow
    obtain ⟨⟨noLine, noBlock⟩, others⟩ := List.forall_mem_cons.mp uncommented
    rw [lineBreaks_cons, ← Nat.add_assoc]
    cases shape : lexeme.shape with
    | blank =>
      obtain ⟨inner, reached, goesOn⟩ := @inductionHypothesis ends _ followRest others
      refine ⟨inner, reached, fun behind tokens arranged tokenLine => ?_⟩
      rw [List.cons_append, Layout.arrange]
      simp only [shape, goesOn behind tokens arranged]
    | newline =>
      obtain ⟨inner, reached, goesOn⟩ := @inductionHypothesis false _ followRest others
      refine ⟨terminators ends lexeme.line ++ inner, reached,
        fun behind tokens arranged tokenLine => ?_⟩
      rw [List.cons_append, Layout.arrange]
      simp only [shape, goesOn behind tokens arranged, endingStatement_eq, List.append_assoc]
    | lineComment => exact absurd shape noLine
    | blockComment => exact absurd shape noBlock
    | token kind =>
      let token : Token := ⟨kind, String.ofList lexeme.text, lexeme.line⟩
      obtain ⟨inner, reached, goesOn⟩ :=
        @inductionHypothesis token.endsStatement _ followRest others
      refine ⟨token :: inner, reached, fun behind tokens arranged tokenLine => ?_⟩
      rw [List.cons_append, Layout.arrange]
      simp only [shape, goesOn behind tokens arranged, Layout.withToken, token, List.cons_append]

/-! ### Further down -/

theorem lineBreaks_moved (offset : Nat) (lexemes : List Lexeme) :
    lineBreaks (lexemes.map (Lexeme.moved offset)) = lineBreaks lexemes := by
  induction lexemes with
  | nil => rfl
  | cons lexeme rest inductionHypothesis =>
    rw [List.map_cons, lineBreaks_cons, lineBreaks_cons, inductionHypothesis]
    rfl

theorem uncommented_moved {offset : Nat} {lexemes : List Lexeme}
    (uncommented : ∀ lexeme ∈ lexemes, lexeme.Uncommented) :
    ∀ lexeme ∈ lexemes.map (Lexeme.moved offset), lexeme.Uncommented := by
  rintro _ member
  obtain ⟨lexeme, inside, rfl⟩ := List.mem_map.mp member
  exact uncommented lexeme inside

theorem net_moved (offset : Nat) (tokens : List Token) :
    net (tokens.map (Token.moved offset)) = net tokens := by
  induction tokens with
  | nil => rfl
  | cons token rest inductionHypothesis =>
    rw [List.map_cons, net_cons, net_cons, inductionHypothesis]
    rfl

theorem stays_moved (offset : Nat) (level : Int) (tokens : List Token) :
    Stays level (tokens.map (Token.moved offset)) ↔ Stays level tokens := by
  induction tokens generalizing level with
  | nil => exact Iff.rfl
  | cons token rest inductionHypothesis =>
    exact and_congr_right fun _ => inductionHypothesis (level + token.step)

theorem balanced_moved (offset : Nat) (tokens : List Token) :
    Balanced (tokens.map (Token.moved offset)) ↔ Balanced tokens := by
  rw [balanced_iff, balanced_iff, net_moved, stays_moved]

/-- The semicolon at the end of a text is no bracket. -/
theorem balanced_of_terminators {inner : List Token} {ends : Bool} {line : Nat}
    (balanced : Balanced (inner ++ terminators ends line)) : Balanced inner := by
  have level : net (terminators ends line) = 0 := by
    cases ends with
    | true => rfl
    | false => rfl
  rw [balanced_iff, stays_append, net_append, level, Int.add_zero] at balanced
  exact balanced_iff.mpr ⟨balanced.1.1, balanced.2⟩

/-! ### The source of a function -/

namespace FunctionBody

/-- The lexemes in front of the space that the head of the function ends with. -/
def head : List Lexeme :=
  [⟨.token .keyword, "package".toList, 1⟩, ⟨.blank, [' '], 1⟩, ⟨.token .ident, ['p'], 1⟩,
    ⟨.newline, ['\n'], 1⟩, ⟨.token .keyword, "func".toList, 2⟩, ⟨.blank, [' '], 2⟩,
    ⟨.token .ident, ['f'], 2⟩, ⟨.token .op, ['('], 2⟩, ⟨.token .op, [')'], 2⟩]

variable (body : FunctionBody)

/-- The line of the closing brace. -/
def lastLine : Nat :=
  2 + lineAdvance body.text

/-- The lexemes of the body where it stands, below the package clause. -/
theorem exists_cut : ∃ found, lexemesFrom 2 body.text.toList = .ok found ∧
    Layout.arrange false 1 2 found = body.layout.moved 1 ∧
    2 + lineBreaks found = body.lastLine ∧ ∀ lexeme ∈ found, lexeme.Uncommented := by
  obtain ⟨found, cut, arranged⟩ := layoutOf_eq_ok.mp body.laid
  have none : (Layout.arrange false 0 1 found).comments = [] := by
    rw [arranged]
    exact body.uncommented
  have advance : lineAdvance body.text = lineBreaks found := by rw [lineAdvance, lexemes, cut]
  refine ⟨found.map (Lexeme.moved 1), ?_, ?_, ?_,
    uncommented_moved (uncommented_of_arrange none)⟩
  · rw [show 2 = 1 + 1 from rfl, lexemesFrom_moved, cut]
    rfl
  · rw [← arranged]
    exact Layout.arrange_moved 1 false 0 1 found
  · rw [lineBreaks_moved, ← advance, lastLine]

/-- What the function is cut into, around the lexemes of its body. -/
def lexemesAround (found : List Lexeme) : List Lexeme :=
  head ++ ⟨.blank, [' '], 2⟩ :: ⟨.token .op, ['\x7b'], 2⟩ ::
    (found ++ [⟨.token .op, ['\x7d'], body.lastLine⟩, ⟨.newline, ['\n'], body.lastLine⟩])

theorem toList_function : body.function.toList = "package p\nfunc f()".toList ++
    ' ' :: '\x7b' :: (body.text.toList ++ '\x7d' :: ['\n']) := by
  have front : "package p\nfunc f() \x7b".toList =
      "package p\nfunc f()".toList ++ [' ', '\x7b'] := by decide +kernel
  have back : "\x7d\n".toList = ['\x7d', '\n'] := by decide +kernel
  have pieces : ∀ front back : String, (front ++ body.text ++ back).toList =
      front.toList ++ (body.text.toList ++ back.toList) := by
    intro front back
    rw [String.toList_append, String.toList_append, List.append_assoc]
  refine (pieces _ _).trans ?_
  rw [front, back, List.append_assoc, List.cons_append, List.cons_append, List.nil_append]

theorem lexemes_function {found : List Lexeme} (cut : lexemesFrom 2 body.text.toList = .ok found)
    (last : 2 + lineBreaks found = body.lastLine)
    (uncommented : ∀ lexeme ∈ found, lexeme.Uncommented) :
    lexemes body.function.toList = .ok (body.lexemesAround found) := by
  have cutHead : lexemesFrom 1 "package p\nfunc f()".toList = .ok head :=
    eq_ok_of_toOption (by decide +kernel)
  have lines : lineBreaks head = 1 := by decide +kernel
  have blank : ∀ rest, nextLexeme ' ' rest = .ok (.blank, 0) := fun rest => rfl
  have opens : ∀ rest, nextLexeme '\x7b' rest = .ok (.token .op, 0) := fun rest => rfl
  have closes : ∀ rest, nextLexeme '\x7d' rest = .ok (.token .op, 0) := fun rest => rfl
  have breaks : ∀ rest, nextLexeme '\n' rest = .ok (.newline, 0) := fun rest => rfl
  have finish : lexemesFrom body.lastLine ['\x7d', '\n'] =
      .ok [⟨.token .op, ['\x7d'], body.lastLine⟩, ⟨.newline, ['\n'], body.lastLine⟩] := by
    rw [lexemesFrom_cons (closes _), List.drop_zero, lexemesFrom_cons (breaks _), List.drop_nil,
      lexemesFrom]
    rfl
  have rest : lexemesFrom 2 (body.text.toList ++ '\x7d' :: ['\n']) =
      .ok (found ++
        [⟨.token .op, ['\x7d'], body.lastLine⟩, ⟨.newline, ['\n'], body.lastLine⟩]) := by
    rw [lexemesFrom_separator (by decide) cut fun lexeme member => (uncommented lexeme member).1,
      last, finish]
    rfl
  rw [lexemes, toList_function, lexemesFrom_separator (by decide) cutHead (by decide), lines,
    lexemesFrom_cons (blank _), List.drop_zero, lexemesFrom_cons (opens _), List.drop_zero]
  exact congrArg (fun cut => Except.map (head ++ ·) (Except.map (⟨.blank, [' '], 2⟩ :: ·)
    (Except.map (⟨.token .op, ['\x7b'], 2⟩ :: ·) cut))) rest

/-- The tokens from the name of the function on. -/
def signature (inner : List Token) : List Token :=
  ⟨.ident, "f", 2⟩ :: ⟨.op, "(", 2⟩ :: ⟨.op, ")", 2⟩ :: ⟨.op, "\x7b", 2⟩ ::
    (inner ++ [⟨.op, "\x7d", body.lastLine⟩, .terminator body.lastLine])

/-- The source of a function is laid out as its tokens, those of the body balanced. -/
theorem exists_layout : ∃ inner, Balanced inner ∧
    layoutOf body.function = .ok ⟨[⟨.keyword, "package", 1⟩, ⟨.ident, "p", 1⟩, .terminator 1,
      ⟨.keyword, "func", 2⟩] ++ body.signature inner, []⟩ ∧
    lineAdvance body.function = lineAdvance body.text + 2 := by
  obtain ⟨found, cut, arranged, last, uncommented⟩ := body.exists_cut
  have cutFunction := body.lexemes_function cut last uncommented
  obtain ⟨inner, reached, goesOn⟩ :=
    @arrange_uncommented false _ _ (follow_of_lexemesFrom cut) uncommented
  refine ⟨inner, ?_, ?_, ?_⟩
  · have alone := goesOn [] (terminators reached body.lastLine) fun tokenLine => by
      rw [last, Layout.arrange, endingStatement_eq, List.append_nil]
    rw [List.append_nil] at alone
    have tokens : body.layout.tokens.map (Token.moved 1) =
        inner ++ terminators reached body.lastLine :=
      congrArg Layout.tokens (arranged.symm.trans (alone 1))
    refine @balanced_of_terminators inner reached body.lastLine ?_
    rw [← tokens]
    exact (balanced_moved 1 _).mpr body.balanced
  · have behind := goesOn
      [⟨.token .op, ['\x7d'], body.lastLine⟩, ⟨.newline, ['\n'], body.lastLine⟩]
      [⟨.op, "\x7d", body.lastLine⟩, .terminator body.lastLine] fun tokenLine => rfl
    have front : ∀ more, Layout.arrange false 0 1
        (head ++ ⟨.blank, [' '], 2⟩ :: ⟨.token .op, ['\x7b'], 2⟩ :: more) =
        Layout.append ⟨[⟨.keyword, "package", 1⟩, ⟨.ident, "p", 1⟩, .terminator 1,
          ⟨.keyword, "func", 2⟩, ⟨.ident, "f", 2⟩, ⟨.op, "(", 2⟩, ⟨.op, ")", 2⟩,
          ⟨.op, "\x7b", 2⟩], []⟩ (Layout.arrange false 2 2 more) := fun more => rfl
    rw [layoutOf, cutFunction]
    simp only [Layout.ofLexemes, lexemesAround, front, behind]
    rfl
  · have lines : lineBreaks head = 1 := by decide +kernel
    rw [lineAdvance, cutFunction]
    have around : lineBreaks (body.lexemesAround found) =
        1 + (0 + (0 + (lineBreaks found + 1))) := by
      rw [lexemesAround, lineBreaks_append, lines, lineBreaks_cons, lineBreaks_cons,
        lineBreaks_append]
      rfl
    rw [lastLine] at last
    simp only
    omega

/-- The declaration that the source of a function holds. -/
def declaration : Declaration :=
  .function ⟨"f", "", none, 2⟩

theorem functionDeclaration_signature {docs : Docs} {inner : List Token}
    (balanced : Balanced inner) (undocumented : docs.above 2 = "") (more : List Token) :
    functionDeclaration docs ⟨.keyword, "func", 2⟩ (body.signature inner ++ more) =
      .ok (⟨"f", "", none, 2⟩, inner.length + 5) := by
  let rest := inner ++ ⟨.op, "\x7d", body.lastLine⟩ :: .terminator body.lastLine :: more
  have whole : body.signature inner ++ more =
      ⟨.ident, "f", 2⟩ :: ⟨.op, "(", 2⟩ :: ⟨.op, ")", 2⟩ :: ⟨.op, "\x7b", 2⟩ :: rest := by
    simp [signature, rest]
  have parameters : skipBalanced (⟨.op, "(", 2⟩ :: ⟨.op, ")", 2⟩ :: ⟨.op, "\x7b", 2⟩ :: rest) =
      .ok ([], 2) :=
    @skipBalanced_of_balanced ⟨.op, "(", 2⟩ ⟨.op, ")", 2⟩ [] rfl (by decide) rfl _
  have braces : skipBalanced (⟨.op, "\x7b", 2⟩ :: rest) = .ok (inner, inner.length + 2) :=
    skipBalanced_of_balanced rfl balanced rfl _
  have used : 1 + 2 + (inner.length + 2) = inner.length + 5 := by omega
  rw [whole]
  simp [functionDeclaration, receiver, identifier, skipIfNext, skipParameters, skipResults,
    startsType, nextIs, Token.is, parameters, braces, bind, Except.bind, pure, Except.pure,
    Except.map, undocumented, used]

/-- Behind the function the rest of the source is read by itself. -/
theorem declarations_function {docs : Docs} {inner : List Token} (balanced : Balanced inner)
    (undocumented : docs.above 2 = "") (more : List Token) :
    declarations docs ([⟨.keyword, "package", 1⟩, ⟨.ident, "p", 1⟩, .terminator 1,
      ⟨.keyword, "func", 2⟩] ++ body.signature inner ++ more) =
      (declarations docs more).map ([declaration] ++ ·) := by
  have read : topLevel docs ⟨.keyword, "func", 2⟩ (body.signature inner ++ more) =
      .ok ([declaration], inner.length + 5 + 1) :=
    TopForm.read rfl (.function rfl
      (body.functionDeclaration_signature balanced undocumented more))
  have behind : (body.signature inner ++ more).drop (inner.length + 5) =
      .terminator body.lastLine :: more := by
    simp [signature]
  simp only [List.cons_append, List.nil_append]
  rw [declarations_package]
  exact declarations_behind (by simp) read behind

/-- A function in front of a source: the source is read as by itself, below the function. -/
theorem readSource_function (behind : String) :
    readSource (body.function ++ behind) =
      followedBy [declaration] (lineAdvance body.text + 2) (readSource behind) := by
  obtain ⟨inner, balanced, laid, advance⟩ := body.exists_layout
  have breaks : ['\n'] <:+ body.function.toList :=
    (show ['\n'] <:+ "\x7d\n".toList by decide +kernel).trans
      ⟨_, (String.toList_append).symm⟩
  unfold readSource
  rw [layoutOf_append laid breaks, advance]
  cases laidBehind : layoutOf behind with
  | error fault => rfl
  | ok other =>
    refine declarations_append_moved ?_
    have undocumented : Docs.above (Docs.moved (lineAdvance body.text + 2)
        (docsOf other.comments)) 2 = "" := by
      refine @Docs.above_append_left [] _ 2 fun entry inside => ?_
      obtain ⟨original, within, rfl⟩ := List.mem_map.mp inside
      obtain ⟨comment, belongs, ends⟩ := mem_docsOf within
      have counted := (counted_of_layoutOf laidBehind).comments comment belongs
      simp only
      omega
    have agrees : (docsOf other.comments).Agrees (lineAdvance body.text + 2)
        (Docs.moved (lineAdvance body.text + 2) (docsOf other.comments)) other.tokens :=
      fun token member => Docs.above_moved _ _ _
    simp only [Layout.append, Layout.moved, List.nil_append, docsOf_moved]
    rw [body.declarations_function balanced undocumented, declarations_moved agrees]

end FunctionBody

/-- The body of a function does not show. What is read of the function and of the text behind it,
or the fault with its message, is the same for any two bodies that take equally many lines: it is
the function, and behind it what is read of the text by itself, as many lines further down as the
function takes. -/
theorem readSource_body (first second : FunctionBody) (behind : String)
    (lines : lineAdvance first.text = lineAdvance second.text) :
    readSource (first.function ++ behind) = readSource (second.function ++ behind) ∧
      readSource (first.function ++ behind) =
        followedBy [.function ⟨"f", "", none, 2⟩] (lineAdvance first.text + 2)
          (readSource behind) := by
  refine ⟨?_, first.readSource_function behind⟩
  rw [first.readSource_function, second.readSource_function, lines]

/-- A body with braces in a string and in a rune, nested blocks and a composite literal. -/
def nestedBody : FunctionBody where
  text := "\n\tfor g(\"\x7d\") \x7b\n\t\tx = []rune\x7b'\x7d', '\x7b'\x7d\n\t\x7d\n"
  layout := ⟨[⟨.keyword, "for", 2⟩, ⟨.ident, "g", 2⟩, ⟨.op, "(", 2⟩, ⟨.string, "\"\x7d\"", 2⟩,
    ⟨.op, ")", 2⟩, ⟨.op, "\x7b", 2⟩, ⟨.ident, "x", 3⟩, ⟨.op, "=", 3⟩, ⟨.op, "[", 3⟩, ⟨.op, "]", 3⟩,
    ⟨.ident, "rune", 3⟩, ⟨.op, "\x7b", 3⟩, ⟨.rune, "'\x7d'", 3⟩, ⟨.op, ",", 3⟩,
    ⟨.rune, "'\x7b'", 3⟩, ⟨.op, "\x7d", 3⟩, .terminator 3, ⟨.op, "\x7d", 4⟩, .terminator 4], []⟩
  laid := eq_ok_of_toOption (by decide +kernel)
  uncommented := rfl
  balanced := by decide +kernel

/-- A body that is a raw literal over several lines, with a brace that closes nothing. -/
def rawBody : FunctionBody where
  text := "return `\n\x7d // no comment\n\n\n`"
  layout := ⟨[⟨.keyword, "return", 1⟩, ⟨.string, "`\n\x7d // no comment\n\n\n`", 1⟩,
    .terminator 5], []⟩
  laid := eq_ok_of_toOption (by decide +kernel)
  uncommented := rfl
  balanced := by decide +kernel

/-- The statement at these bodies, with a documented variable behind the function. -/
theorem readSource_nestedBody :
    let behind := "\n// A is one.\nvar a = 1\n"
    let found : List Declaration :=
      [.function ⟨"f", "", none, 2⟩, .value ⟨.var, "A is one.\n", [⟨["a"], ["1"]⟩], 9⟩]
    lineAdvance nestedBody.text = lineAdvance rawBody.text ∧
      readSource (nestedBody.function ++ behind) = .ok found ∧
      readSource (rawBody.function ++ behind) = .ok found := by
  intro behind found
  have lines : lineAdvance nestedBody.text = lineAdvance rawBody.text := by decide +kernel
  have advance : lineAdvance nestedBody.text = 4 := by decide +kernel
  have read : readSource behind = .ok [.value ⟨.var, "A is one.\n", [⟨["a"], ["1"]⟩], 3⟩] :=
    eq_ok_of_toOption (by decide +kernel)
  obtain ⟨same, whole⟩ := readSource_body nestedBody rawBody behind lines
  rw [read, advance] at whole
  exact ⟨lines, whole, same.symm.trans whole⟩

end GoApiDoc.Go
