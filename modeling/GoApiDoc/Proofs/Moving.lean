/-
This file moves a source to later lines. Nothing that reads a source looks at the number of a line
except to compare it with another one of the same source, so reading a source some lines further
down gives the same declarations and the same faults, on lines that are as many further down. Each
function on the way from the text to the declarations has a statement that says so.

The documentation is looked up by line, and the reader asks for nothing else of it. Where it is
read is therefore left open: the statements take any other documentation that answers the same
question on the line further down.
-/

import GoApiDoc.Proofs.Grouping
import GoApiDoc.Proofs.Reading
import GoApiDoc.Proofs.Seam

namespace GoApiDoc.Go

open Text

/-! ### What is moved -/

/-- The token, as many lines further down. -/
def Token.moved (offset : Nat) (token : Token) : Token :=
  { token with line := token.line + offset }

/-- The lexeme, as many lines further down. -/
def Lexeme.moved (offset : Nat) (lexeme : Lexeme) : Lexeme :=
  { lexeme with line := lexeme.line + offset }

/-- The comment, as many lines further down. -/
def Comment.moved (offset : Nat) (comment : Comment) : Comment :=
  { comment with first := comment.first + offset, last := comment.last + offset }

/-- The tokens and comments, as many lines further down. -/
def Layout.moved (offset : Nat) (layout : Layout) : Layout :=
  ⟨layout.tokens.map (Token.moved offset), layout.comments.map (Comment.moved offset)⟩

/-- The documentation of lines that are as many further down. -/
def Docs.moved (offset : Nat) (docs : Docs) : Docs :=
  docs.map fun entry => (entry.1 + offset, entry.2)

/-- The fault, as many lines further down. -/
def ReadFault.moved (offset : Nat) : ReadFault → ReadFault
  | .lexical fault line => .lexical fault (line + offset)
  | .unexpected wanted found => .unexpected wanted (found.map (Token.moved offset))
  | .unbalanced opener => .unbalanced (opener.moved offset)
  | .badTag fault literal => .badTag fault (literal.moved offset)
  | .openTypeGroup => .openTypeGroup

/-- The fault of a source, as many lines further down. -/
def SourceFault.moved (offset : Nat) (fault : SourceFault) : SourceFault :=
  ⟨fault.fault.moved offset, fault.line.map (· + offset)⟩

/-- The type declaration, as many lines further down. -/
def TypeDeclaration.moved (offset : Nat) (declaration : TypeDeclaration) : TypeDeclaration :=
  { declaration with line := declaration.line + offset }

/-- The value declaration, as many lines further down. -/
def ValueDeclaration.moved (offset : Nat) (declaration : ValueDeclaration) : ValueDeclaration :=
  { declaration with line := declaration.line + offset }

/-- The function declaration, as many lines further down. -/
def FunctionDeclaration.moved (offset : Nat) (declaration : FunctionDeclaration) :
    FunctionDeclaration :=
  { declaration with line := declaration.line + offset }

/-- The declaration, as many lines further down. -/
def Declaration.moved (offset : Nat) : Declaration → Declaration
  | .type declaration => .type (declaration.moved offset)
  | .value declaration => .value (declaration.moved offset)
  | .function declaration => .function (declaration.moved offset)

@[simp] theorem Token.kind_moved (offset : Nat) (token : Token) :
    (token.moved offset).kind = token.kind :=
  rfl

@[simp] theorem Token.text_moved (offset : Nat) (token : Token) :
    (token.moved offset).text = token.text :=
  rfl

@[simp] theorem Token.isOpener_moved (offset : Nat) (token : Token) :
    (token.moved offset).isOpener = token.isOpener :=
  rfl

@[simp] theorem Token.isCloser_moved (offset : Nat) (token : Token) :
    (token.moved offset).isCloser = token.isCloser :=
  rfl

@[simp] theorem Comment.ownLine_moved (offset : Nat) (comment : Comment) :
    (comment.moved offset).ownLine = comment.ownLine :=
  rfl

/-- Moving by no lines leaves a token as it is. -/
theorem Token.moved_zero : Token.moved 0 = id :=
  rfl

theorem Declaration.moved_zero : Declaration.moved 0 = id := by
  funext declaration
  cases declaration with
  | type declaration => rfl
  | value declaration => rfl
  | function declaration => rfl

/-- A fault says the same wherever it stands. -/
theorem ReadFault.message_moved (offset : Nat) (fault : ReadFault) :
    (fault.moved offset).message = fault.message := by
  cases fault with
  | unexpected wanted found =>
    cases found with
    | none => rfl
    | some token => rfl
  | lexical fault line => rfl
  | unbalanced opener => rfl
  | badTag fault literal => rfl
  | openTypeGroup => rfl

/-- The line of a fault moves along, also where the fault is at the end and has that of the last
token. -/
theorem ReadFault.line_moved (offset : Nat) (last : Option Nat) (fault : ReadFault) :
    (fault.moved offset).line (last.map (· + offset)) = (fault.line last).map (· + offset) := by
  cases fault with
  | unexpected wanted found =>
    cases found with
    | none => rfl
    | some token => rfl
  | lexical fault line => rfl
  | unbalanced opener => rfl
  | badTag fault literal => rfl
  | openTypeGroup => rfl

/-! ### Lexemes and layouts -/

@[simp] theorem Lexeme.lineBreaks_moved (offset : Nat) (lexeme : Lexeme) :
    (lexeme.moved offset).lineBreaks = lexeme.lineBreaks :=
  rfl

/-- What was cut from a source, or the fault, as many lines further down. -/
def movedCut (offset : Nat) :
    Except (LexicalFault × Nat) (List Lexeme) → Except (LexicalFault × Nat) (List Lexeme)
  | .error (fault, line) => .error (fault, line + offset)
  | .ok found => .ok (found.map (Lexeme.moved offset))

/-- Cutting a source that starts further down gives the same lexemes further down. -/
theorem lexemesFrom_moved (offset line : Nat) (source : List Char) :
    lexemesFrom (line + offset) source = movedCut offset (lexemesFrom line source) := by
  induction source using drop_induction generalizing line with
  | nil =>
    rw [lexemesFrom, lexemesFrom]
    rfl
  | cons first rest behind =>
    cases next : nextLexeme first rest with
    | error fault =>
      rw [lexemesFrom, lexemesFrom, next]
      rfl
    | ok pair =>
      obtain ⟨shape, extra⟩ := pair
      have lines : line + offset +
          Lexeme.lineBreaks ⟨shape, first :: rest.take extra, line + offset⟩ =
          line + Lexeme.lineBreaks ⟨shape, first :: rest.take extra, line⟩ + offset :=
        Nat.add_right_comm _ _ _
      rw [lexemesFrom_cons next, lexemesFrom_cons next, lines, behind]
      cases lexemesFrom _ (rest.drop extra) with
      | error fault => rfl
      | ok lexemes => rfl

/-- A semicolon that a line break stands for is put on the line that moved. -/
theorem Layout.endingStatement_moved (offset line : Nat) (ends : Bool) (layout : Layout) :
    Layout.endingStatement ends (line + offset) (layout.moved offset) =
      (Layout.endingStatement ends line layout).moved offset := by
  cases ends with
  | true => rfl
  | false => rfl

/-- Tokens, comments and the semicolons between them move together. -/
theorem Layout.arrange_moved (offset : Nat) (ends : Bool) (tokenLine line : Nat)
    (lexemes : List Lexeme) :
    Layout.arrange ends (tokenLine + offset) (line + offset) (lexemes.map (Lexeme.moved offset)) =
      (Layout.arrange ends tokenLine line lexemes).moved offset := by
  induction lexemes generalizing ends tokenLine line with
  | nil => exact Layout.endingStatement_moved offset line ends ⟨[], []⟩
  | cons lexeme rest inductionHypothesis =>
    have next : (lexeme.moved offset).line + (lexeme.moved offset).lineBreaks =
        lexeme.line + lexeme.lineBreaks + offset := Nat.add_right_comm _ _ _
    have apart : (tokenLine + offset != (lexeme.moved offset).line) =
        (tokenLine != lexeme.line) := by
      rw [Bool.eq_iff_iff, bne_iff_ne, bne_iff_ne]
      exact not_congr Nat.add_right_cancel_iff
    rw [List.map_cons, Layout.arrange, Layout.arrange, next, apart]
    simp only [inductionHypothesis, Lexeme.lineBreaks_moved]
    cases shape : lexeme.shape with
    | blank => simp only [Lexeme.moved, shape]
    | newline =>
      simp only [Lexeme.moved, shape]
      exact Layout.endingStatement_moved offset lexeme.line ends _
    | lineComment =>
      simp only [Lexeme.moved, shape]
      rfl
    | blockComment =>
      simp only [Lexeme.moved, shape, Layout.endingStatement_moved]
      rfl
    | token kind =>
      simp only [Lexeme.moved, shape]
      rfl

/-! ### Documentation -/

/-- Whether a comment goes on a group is told by the distance of lines only. -/
theorem Comment.joins_moved (offset : Nat) (comment : Comment) (group : List Comment) :
    (comment.moved offset).joins (group.map (Comment.moved offset)) = comment.joins group := by
  unfold Comment.joins
  rw [List.getLast?_map]
  cases group.getLast? with
  | none => rfl
  | some previous =>
    have near : (comment.moved offset).first ≤ (previous.moved offset).last + 1 ↔
        comment.first ≤ previous.last + 1 := by
      simp only [Comment.moved]
      omega
    simp only [Option.map_some, Option.all_some, decide_eq_decide.mpr near, Comment.ownLine_moved]

theorem Comment.opened_moved (offset : Nat) (comment : Comment) :
    (comment.moved offset).opened = comment.opened.map (Comment.moved offset) := by
  unfold Comment.opened
  rw [Comment.ownLine_moved]
  split
  · rfl
  · rfl

theorem closed_moved (offset : Nat) (group : List Comment) :
    closed (group.map (Comment.moved offset)) =
      (closed group).map (List.map (Comment.moved offset)) := by
  unfold closed
  rw [List.isEmpty_map]
  split
  · rfl
  · rfl

/-- Comments are grouped as before. -/
theorem groupsFrom_moved (offset : Nat) (group comments : List Comment) :
    groupsFrom (group.map (Comment.moved offset)) (comments.map (Comment.moved offset)) =
      (groupsFrom group comments).map (List.map (Comment.moved offset)) := by
  induction comments generalizing group with
  | nil => exact closed_moved offset group
  | cons comment rest inductionHypothesis =>
    have joined := inductionHypothesis (group ++ [comment])
    rw [List.map_append] at joined
    rw [List.map_cons, groupsFrom_cons, groupsFrom_cons, Comment.joins_moved, Comment.opened_moved,
      closed_moved, inductionHypothesis]
    split
    · exact joined
    · rw [List.map_append]

/-- The comments that document something stay over the same lines. -/
theorem docsOf_moved (offset : Nat) (comments : List Comment) :
    docsOf (comments.map (Comment.moved offset)) = Docs.moved offset (docsOf comments) := by
  have groups := groupsFrom_moved offset [] comments
  rw [List.map_nil] at groups
  unfold docsOf Docs.moved
  rw [groups, List.map_map, List.map_map]
  refine List.map_congr_left fun group member => ?_
  obtain ⟨last, ends⟩ := Option.isSome_iff_exists.mp
    (List.getLast?_isSome.mpr (groupsFrom_ne_nil member))
  simp only [Function.comp_apply, List.getLast?_map, ends, groupText, List.flatMap_map]
  rfl

/-- What stands over a line stands over the line that it moved to. -/
theorem Docs.above_moved (offset line : Nat) (docs : Docs) :
    (docs.moved offset).above (line + offset) = docs.above line := by
  have same : (fun entry : Nat × String => entry.1 + 1 == line + offset) ∘
      (fun entry : Nat × String => (entry.1 + offset, entry.2)) =
      fun entry => entry.1 + 1 == line := by
    funext entry
    rw [Function.comp_apply, Bool.eq_iff_iff, beq_iff_eq, beq_iff_eq]
    omega
  unfold Docs.above Docs.moved
  rw [← List.map_reverse, List.find?_map, same, Option.map_map]
  rfl

/-! ### Results of reading -/

/-- What was read, moved by `move`, or the fault, as many lines further down. -/
def movedRead {Value Result : Type} (offset : Nat) (move : Value → Result) :
    Except ReadFault Value → Except ReadFault Result
  | .error fault => .error (fault.moved offset)
  | .ok value => .ok (move value)

/-- A reading that moves, and then one that moves for every value of it. -/
theorem movedRead_bind {First Second Value Result : Type} {offset : Nat} {move : First → Second}
    {finish : Value → Result} {read : Except ReadFault First}
    {next : First → Except ReadFault Value} {other : Second → Except ReadFault Result}
    (each : ∀ value, other (move value) = movedRead offset finish (next value)) :
    movedRead offset move read >>= other = movedRead offset finish (read >>= next) := by
  cases read with
  | error fault => rfl
  | ok value => exact each value

theorem movedRead_map {First Second Value Result : Type} {offset : Nat} {move : First → Second}
    {finish : Value → Result} {next : First → Value} {other : Second → Result}
    (read : Except ReadFault First) (each : ∀ value, other (move value) = finish (next value)) :
    (movedRead offset move read).map other = movedRead offset finish (read.map next) := by
  cases read with
  | error fault => rfl
  | ok value => exact congrArg Except.ok (each value)

/-- The branch is taken by a test that does not depend on lines. -/
theorem movedRead_ite {Value Result : Type} {offset : Nat} {move : Value → Result}
    {condition : Prop} [Decidable condition] {first second : Except ReadFault Value}
    {firstMoved secondMoved : Except ReadFault Result}
    (holds : condition → firstMoved = movedRead offset move first)
    (fails : ¬ condition → secondMoved = movedRead offset move second) :
    (if condition then firstMoved else secondMoved) =
      movedRead offset move (if condition then first else second) := by
  split
  · next yes => exact holds yes
  · next no => exact fails no

/-! ### Reading -/

variable (offset : Nat)

@[simp] theorem nextIs_moved (text : String) (tokens : List Token) :
    nextIs text (tokens.map (Token.moved offset)) = nextIs text tokens := by
  cases tokens with
  | nil => rfl
  | cons token rest => rfl

@[simp] theorem startsType_moved (tokens : List Token) :
    startsType (tokens.map (Token.moved offset)) = startsType tokens := by
  cases tokens with
  | nil => rfl
  | cons token rest => rfl

theorem joinAfter_moved (previous : Token) (tokens : List Token) :
    Token.joinAfter (previous.moved offset) (tokens.map (Token.moved offset)) =
      Token.joinAfter previous tokens := by
  induction tokens generalizing previous with
  | nil => rfl
  | cons token rest inductionHypothesis =>
    rw [List.map_cons, Token.joinAfter, Token.joinAfter, inductionHypothesis]
    rfl

/-- Lines leave no trace in the spelling of a run. -/
@[simp] theorem join_moved (tokens : List Token) :
    Token.join (tokens.map (Token.moved offset)) = Token.join tokens := by
  cases tokens with
  | nil => rfl
  | cons token rest => exact congrArg (token.text ++ ·) (joinAfter_moved offset token rest)

theorem expect_moved (text : String) (tokens : List Token) :
    expect text (tokens.map (Token.moved offset)) = movedRead offset id (expect text tokens) := by
  unfold expect
  rw [nextIs_moved, List.head?_map]
  split
  · rfl
  · rfl

theorem identifier_moved (tokens : List Token) :
    identifier (tokens.map (Token.moved offset)) =
      movedRead offset (Token.moved offset) (identifier tokens) := by
  cases tokens with
  | nil => rfl
  | cons token rest =>
    exact movedRead_ite (fun _ => rfl) fun _ => rfl

/-- A bracketed run ends at the same token. -/
theorem insideBrackets_moved (depth : Nat) (tokens : List Token) :
    insideBrackets depth (tokens.map (Token.moved offset)) =
      (insideBrackets depth tokens).map (List.map (Token.moved offset)) := by
  induction tokens generalizing depth with
  | nil => rfl
  | cons token rest inductionHypothesis =>
    have inner : ∀ depth, (insideBrackets depth (rest.map (Token.moved offset))).map
        (token.moved offset :: ·) =
        ((insideBrackets depth rest).map (token :: ·)).map (List.map (Token.moved offset)) := by
      intro depth
      rw [inductionHypothesis, Option.map_map, Option.map_map]
      rfl
    rw [List.map_cons, insideBrackets.eq_def, insideBrackets.eq_def depth (token :: rest)]
    simp only [Token.isOpener_moved, Token.isCloser_moved, inner]
    split
    · rfl
    · split
      · cases depth with
        | zero => rfl
        | succ depth => rfl
      · rfl

/-- A bracketed run is skipped as before, and a bracket that is not closed is reported on its new
line. -/
theorem skipBalanced_moved (tokens : List Token) :
    skipBalanced (tokens.map (Token.moved offset)) =
      movedRead offset (Prod.map (List.map (Token.moved offset)) id) (skipBalanced tokens) := by
  cases tokens with
  | nil => rfl
  | cons opener rest =>
    refine movedRead_ite (fun _ => ?_) fun _ => ?_
    · rw [insideBrackets_moved]
      cases insideBrackets 0 rest with
      | none => rfl
      | some inner => simp [movedRead]
    · rw [List.head?_map]
      rfl

/-- What follows a name of any length. -/
theorem afterName_moved (ref : TypeRef) (length : Nat) (tokens : List Token) :
    (if nextIs "[" ((tokens.map (Token.moved offset)).drop length) = true then do
        let (_, arguments) ← skipBalanced ((tokens.map (Token.moved offset)).drop length)
        return (TypeRef.other (Token.join ((tokens.map (Token.moved offset)).take
          (length + arguments))), length + arguments)
      else pure (ref, length) : Except ReadFault (TypeRef × Nat)) =
    movedRead offset id (if nextIs "[" (tokens.drop length) = true then do
        let (_, arguments) ← skipBalanced (tokens.drop length)
        return (TypeRef.other (Token.join (tokens.take (length + arguments))), length + arguments)
      else pure (ref, length)) := by
  simp only [← List.map_drop, ← List.map_take, nextIs_moved, join_moved, skipBalanced_moved]
  exact movedRead_ite (fun _ => movedRead_bind fun _ => rfl) fun _ => rfl

/-- A name, with its package and type arguments. -/
theorem typeRef_moved_of_ident {token : Token} (kind : token.kind = .ident) (rest : List Token) :
    typeRef ((token :: rest).map (Token.moved offset)) =
      movedRead offset id (typeRef (token :: rest)) := by
  rw [List.map_cons, typeRef.eq_def, typeRef.eq_def (token :: rest)]
  simp only [Token.kind_moved, Token.text_moved, kind]
  cases rest with
  | nil => exact afterName_moved offset _ 1 [token]
  | cons dot tail =>
    cases tail with
    | nil => exact afterName_moved offset _ 1 [token, dot]
    | cons name tail =>
      simp only [List.map_cons]
      by_cases both : dot.is "." ∧ name.kind = .ident
      · have both' : (dot.moved offset).is "." ∧ (name.moved offset).kind = .ident := both
        rw [if_pos both, if_pos both']
        exact afterName_moved offset _ 3 (token :: dot :: name :: tail)
      · have neither : ¬ ((dot.moved offset).is "." ∧ (name.moved offset).kind = .ident) := both
        rw [if_neg both, if_neg neither]
        exact afterName_moved offset _ 1 (token :: dot :: name :: tail)

/-- Types have no lines, so only the fault of a type moves. -/
theorem typeRef_moved (tokens : List Token) :
    typeRef (tokens.map (Token.moved offset)) = movedRead offset id (typeRef tokens) := by
  induction tokens using drop_induction with
  | nil => simp [typeRef, movedRead, ReadFault.moved]
  | cons token rest behind =>
    have tail : ∀ count, typeRef ((rest.map (Token.moved offset)).drop count) =
        movedRead offset id (typeRef (rest.drop count)) := by
      intro count
      rw [← List.map_drop, behind]
    have whole := tail 0
    rw [List.drop_zero, List.drop_zero] at whole
    have spelling : ∀ count, Token.join ((token.moved offset ::
        rest.map (Token.moved offset)).take count) = Token.join ((token :: rest).take count) := by
      intro count
      rw [← List.map_cons, ← List.map_take, join_moved]
    by_cases named : token.kind = .ident
    · exact typeRef_moved_of_ident offset named rest
    rw [List.map_cons, typeRef.eq_def, typeRef.eq_def (token :: rest)]
    simp only [Token.kind_moved, Token.text_moved, spelling]
    cases kind : token.kind with
    | op =>
      refine movedRead_ite (fun _ => ?_) fun _ => movedRead_ite (fun _ => ?_) fun _ =>
        movedRead_ite (fun _ => ?_) fun _ => movedRead_ite (fun _ => ?_) fun _ => ?_
      · rw [whole]
        exact movedRead_bind fun _ => rfl
      · rw [whole]
        refine movedRead_bind fun inner => ?_
        rw [id, ← List.map_drop, expect_moved]
        exact movedRead_bind fun _ => rfl
      · have run : (rest.map (Token.moved offset)).takeWhile (fun token => !token.is "]") =
            (rest.takeWhile fun token => !token.is "]").map (Token.moved offset) :=
          List.takeWhile_map
        rw [run, List.length_map, List.length_map, List.isEmpty_map, join_moved, tail]
        refine movedRead_ite (fun _ => rfl) fun _ => ?_
        exact movedRead_bind fun _ => rfl
      · rw [expect_moved]
        refine movedRead_bind fun _ => ?_
        rw [tail]
        exact movedRead_bind fun _ => rfl
      · rfl
    | keyword =>
      refine movedRead_ite (fun _ => ?_) fun _ => movedRead_ite (fun _ => ?_) fun _ =>
        movedRead_ite (fun _ => ?_) fun _ => movedRead_ite (fun _ => ?_) fun _ => ?_
      · rw [expect_moved]
        refine movedRead_bind fun _ => ?_
        rw [tail]
        refine movedRead_bind fun key => ?_
        rw [← List.map_drop, expect_moved]
        refine movedRead_bind fun _ => ?_
        rw [tail]
        exact movedRead_bind fun _ => rfl
      · rw [nextIs_moved, tail]
        exact movedRead_bind fun _ => rfl
      · rw [skipBalanced_moved]
        exact movedRead_bind fun _ => rfl
      · rw [skipBalanced_moved]
        refine movedRead_bind fun parameters => ?_
        simp only [Prod.map_snd, id, nextIs_moved, startsType_moved, ← List.map_drop]
        refine movedRead_ite (fun _ => ?_) fun _ => movedRead_ite (fun _ => ?_) fun _ => rfl
        · rw [skipBalanced_moved]
          exact movedRead_bind fun _ => rfl
        · rw [List.map_drop, tail]
          exact movedRead_bind fun _ => rfl
      · rfl
    | ident => exact absurd kind named
    | number => rfl
    | string => rfl
    | rune => rfl
    | semicolon => rfl

/-! ### Lists of items -/

theorem single_moved {Item Result : Type} {move : Item → Result}
    (read : Except ReadFault (Item × Nat)) :
    single (movedRead offset (Prod.map move id) read) =
      movedRead offset (Prod.map (List.map move) id) (single read) :=
  movedRead_map read fun _ => rfl

/-- Lists of items are read alike further down if each of their items is. -/
theorem itemsUntil_moved {Item Result : Type} {closer : String} {unclosed : ReadFault}
    {move : Item → Result} {item : List Token → Except ReadFault (List Item × Nat)}
    {other : List Token → Except ReadFault (List Result × Nat)} {tokens : List Token}
    (steady : unclosed.moved offset = unclosed)
    (each : ∀ rest, rest <:+ tokens → other (rest.map (Token.moved offset)) =
      movedRead offset (Prod.map (List.map move) id) (item rest)) :
    itemsUntil closer unclosed other (tokens.map (Token.moved offset)) =
      movedRead offset (Prod.map (List.map move) id) (itemsUntil closer unclosed item tokens) := by
  induction tokens using drop_induction with
  | nil => rw [List.map_nil, itemsUntil, itemsUntil, movedRead, steady]
  | cons token rest behind =>
    have tail : ∀ count, itemsUntil closer unclosed other
        ((rest.map (Token.moved offset)).drop count) =
        movedRead offset (Prod.map (List.map move) id)
          (itemsUntil closer unclosed item (rest.drop count)) := by
      intro count
      have suffix : rest.drop count <:+ token :: rest :=
        (List.drop_suffix count rest).trans (List.suffix_cons token rest)
      rw [← List.map_drop]
      exact behind count fun others inside => each others (inside.trans suffix)
    have whole := tail 0
    rw [List.drop_zero, List.drop_zero] at whole
    have own := each (token :: rest) List.suffix_rfl
    rw [List.map_cons] at own
    rw [List.map_cons, itemsUntil, itemsUntil, own, whole]
    refine movedRead_ite (fun _ => rfl) fun _ => movedRead_ite (fun _ => ?_) fun _ => ?_
    · exact movedRead_bind fun _ => rfl
    · refine movedRead_bind fun read => ?_
      simp only [Prod.map_snd, id, tail]
      rw [← List.map_drop, nextIs_moved, expect_moved]
      refine movedRead_ite (fun _ => movedRead_bind fun _ => movedRead_bind fun others => ?_)
        fun _ => movedRead_bind fun others => ?_
      · simp [movedRead, pure, Except.pure]
      · simp [movedRead, pure, Except.pure]

/-! ### Struct fields -/

theorem identifierList_moved (tokens : List Token) :
    identifierList (tokens.map (Token.moved offset)) =
      movedRead offset id (identifierList tokens) := by
  induction tokens using drop_induction with
  | nil => rfl
  | cons token rest behind =>
    cases rest with
    | nil => exact movedRead_ite (fun _ => rfl) fun _ => rfl
    | cons comma tail =>
      have others : identifierList (tail.map (Token.moved offset)) =
          movedRead offset id (identifierList tail) := behind 1
      rw [List.map_cons, List.map_cons, identifierList, identifierList, others]
      refine movedRead_ite (fun _ => ?_) fun _ => rfl
      exact movedRead_ite (fun _ => movedRead_bind fun _ => rfl) fun _ => rfl

theorem fieldTag_moved (tokens : List Token) :
    fieldTag (tokens.map (Token.moved offset)) = movedRead offset id (fieldTag tokens) := by
  cases tokens with
  | nil => rfl
  | cons token rest =>
    refine movedRead_ite (fun _ => ?_) fun _ => rfl
    rw [Token.text_moved]
    cases unquote token.text with
    | error fault => rfl
    | ok tag => rfl

@[simp] theorem startsEmbedded_moved (tokens : List Token) :
    startsEmbedded (tokens.map (Token.moved offset)) = startsEmbedded tokens := by
  match tokens with
  | [] => rfl
  | [token] => rfl
  | token :: following :: rest => rfl

/-- Fields have no lines either. -/
theorem fieldDeclaration_moved (tokens : List Token) :
    fieldDeclaration (tokens.map (Token.moved offset)) =
      movedRead offset id (fieldDeclaration tokens) := by
  unfold fieldDeclaration
  rw [startsEmbedded_moved, typeRef_moved, identifierList_moved]
  simp only [← List.map_drop, typeRef_moved, fieldTag_moved]
  refine movedRead_ite (fun _ => ?_) fun _ => ?_
  · exact movedRead_bind fun type => movedRead_bind fun tag => rfl
  · exact movedRead_bind fun names => movedRead_bind fun type => movedRead_bind fun tag => rfl

theorem fieldLines_moved (tokens : List Token) :
    fieldLines (tokens.map (Token.moved offset)) = movedRead offset id (fieldLines tokens) := by
  have each : ∀ rest, rest <:+ tokens → fieldDeclaration (rest.map (Token.moved offset)) =
      movedRead offset (Prod.map (List.map id) id) (fieldDeclaration rest) := by
    intro rest _
    rw [List.map_id_fun, Prod.map_id]
    exact fieldDeclaration_moved offset rest
  have lines : fieldLines (tokens.map (Token.moved offset)) =
      movedRead offset (Prod.map (List.map id) id) (fieldLines tokens) :=
    itemsUntil_moved offset rfl each
  rw [List.map_id_fun, Prod.map_id] at lines
  exact lines

/-- The fields of a struct stay the same, and a fault among them moves. -/
theorem structFields_moved (tokens : List Token) :
    structFields (tokens.map (Token.moved offset)) =
      movedRead offset id (structFields tokens) := by
  unfold structFields
  rw [expect_moved, ← List.map_drop, fieldLines_moved]
  exact movedRead_bind fun _ => movedRead_bind fun _ => rfl

/-! ### Type declarations -/

/-- A skipped run is as long further down. -/
theorem map_snd_moved {Item Result : Type} {move : Item → Result}
    (read : Except ReadFault (Item × Nat)) :
    (movedRead offset (Prod.map move id) read).map Prod.snd =
      movedRead offset id (read.map Prod.snd) :=
  movedRead_map read fun _ => rfl

theorem typeUsed_moved (tokens : List Token) :
    (typeRef (tokens.map (Token.moved offset))).map Prod.snd =
      movedRead offset id ((typeRef tokens).map Prod.snd) := by
  rw [typeRef_moved]
  exact movedRead_map _ fun _ => rfl

theorem skipTypeParameters_moved (tokens : List Token) :
    skipTypeParameters (tokens.map (Token.moved offset)) =
      movedRead offset id (skipTypeParameters tokens) := by
  have opens : opensTypeParameters (tokens.map (Token.moved offset)) =
      opensTypeParameters tokens := by
    match tokens with
    | [] => rfl
    | [bracket] => rfl
    | [bracket, first] => rfl
    | bracket :: first :: second :: rest => rfl
  unfold skipTypeParameters
  rw [opens, skipBalanced_moved, map_snd_moved]
  exact movedRead_ite (fun _ => rfl) fun _ => rfl

/-- What is declared of a type is the same. -/
theorem typeBody_moved (tokens : List Token) :
    typeBody (tokens.map (Token.moved offset)) = movedRead offset id (typeBody tokens) := by
  unfold typeBody
  rw [← List.map_drop, nextIs_moved, nextIs_moved, structFields_moved, typeRef_moved]
  exact movedRead_ite (fun _ => movedRead_bind fun _ => rfl) fun _ => movedRead_bind fun _ => rfl

/-- A type is declared on the line that moved, with the comments it had. -/
theorem typeSpec_moved (doc groupDoc : String) (tokens : List Token) :
    typeSpec doc groupDoc (tokens.map (Token.moved offset)) =
      movedRead offset (Prod.map (TypeDeclaration.moved offset) id)
        (typeSpec doc groupDoc tokens) := by
  unfold typeSpec
  rw [identifier_moved, ← List.map_drop, skipTypeParameters_moved]
  refine movedRead_bind fun name => movedRead_bind fun parameters => ?_
  simp only [id, ← List.map_drop, nextIs_moved, typeBody_moved]
  exact movedRead_bind fun _ => rfl

/-- The other documentation says of the lines further down what this one says of the lines on
which the tokens stand. -/
def Docs.Agrees (docs other : Docs) (tokens : List Token) : Prop :=
  ∀ token ∈ tokens, other.above (token.line + offset) = docs.above token.line

variable {offset}

theorem Docs.Agrees.suffix {docs other : Docs} {tokens rest : List Token}
    (agrees : docs.Agrees offset other tokens) (inside : rest <:+ tokens) :
    docs.Agrees offset other rest :=
  fun token member => agrees token (inside.subset member)

theorem Docs.Agrees.tail {docs other : Docs} {token : Token} {rest : List Token}
    (agrees : docs.Agrees offset other (token :: rest)) : docs.Agrees offset other rest :=
  agrees.suffix (List.suffix_cons token rest)

theorem Docs.Agrees.drop {docs other : Docs} {tokens : List Token}
    (agrees : docs.Agrees offset other tokens) (count : Nat) :
    docs.Agrees offset other (tokens.drop count) :=
  agrees.suffix (List.drop_suffix count tokens)

/-- The next token has the comment over it that it had before it moved. -/
theorem Docs.Agrees.aboveNext {docs other : Docs} {tokens : List Token}
    (agrees : docs.Agrees offset other tokens) :
    other.aboveNext (tokens.map (Token.moved offset)) = docs.aboveNext tokens := by
  cases tokens with
  | nil => rfl
  | cons token rest => exact agrees token List.mem_cons_self

/-- Each type of a group has the comment over its own line. -/
theorem typeGroup_moved {docs other : Docs} {groupDoc : String} {tokens : List Token}
    (agrees : docs.Agrees offset other tokens) :
    typeGroup other groupDoc (tokens.map (Token.moved offset)) =
      movedRead offset (Prod.map (List.map (TypeDeclaration.moved offset)) id)
        (typeGroup docs groupDoc tokens) := by
  refine itemsUntil_moved offset rfl fun rest inside => ?_
  rw [(agrees.suffix inside).aboveNext, typeSpec_moved, single_moved]

/-- Types move with the comments over them and over their group. -/
theorem typeDeclaration_moved {docs other : Docs} {keyword : Token} {tokens : List Token}
    (agrees : docs.Agrees offset other (keyword :: tokens)) :
    typeDeclaration other (keyword.moved offset) (tokens.map (Token.moved offset)) =
      movedRead offset (Prod.map (List.map (TypeDeclaration.moved offset)) id)
        (typeDeclaration docs keyword tokens) := by
  have doc : other.above (keyword.moved offset).line = docs.above keyword.line :=
    agrees keyword List.mem_cons_self
  unfold typeDeclaration
  simp only [doc, ← List.map_drop, nextIs_moved, typeGroup_moved (agrees.tail.drop 1),
    typeSpec_moved, single_moved]
  exact movedRead_ite (fun _ => movedRead_bind fun _ => rfl) fun _ => rfl

/-! ### Value declarations -/

variable (offset)

/-- Initialisers are spelled without lines and end where they ended. -/
theorem initialisers_moved (depth : Int) (current tokens : List Token) :
    initialisers depth (current.map (Token.moved offset)) (tokens.map (Token.moved offset)) =
      initialisers depth current tokens := by
  induction tokens generalizing depth current with
  | nil =>
    rw [List.map_nil, initialisers, initialisers, List.isEmpty_map, ← List.map_reverse, join_moved]
  | cons token rest inductionHypothesis =>
    have longer := fun depth => inductionHypothesis depth (token :: current)
    have empty := fun depth => inductionHypothesis depth []
    simp only [List.map_cons, List.map_nil] at longer empty
    rw [List.map_cons, initialisers, initialisers]
    simp only [List.isEmpty_map, ← List.map_reverse, join_moved, longer, empty]
    rfl

theorem skipValueType_moved (tokens : List Token) :
    skipValueType (tokens.map (Token.moved offset)) =
      movedRead offset id (skipValueType tokens) := by
  unfold skipValueType
  rw [nextIs_moved, nextIs_moved, nextIs_moved, typeUsed_moved]
  exact movedRead_ite (fun _ => rfl) fun _ => rfl

/-- Names and initialisers of a value are the same. -/
theorem valueSpec_moved (tokens : List Token) :
    valueSpec (tokens.map (Token.moved offset)) = movedRead offset id (valueSpec tokens) := by
  have values := fun tokens => initialisers_moved offset 0 [] tokens
  simp only [List.map_nil] at values
  unfold valueSpec
  rw [identifierList_moved]
  refine movedRead_bind fun names => ?_
  simp only [id, ← List.map_drop, skipValueType_moved]
  refine movedRead_bind fun type => ?_
  simp only [id, nextIs_moved, values]
  exact movedRead_ite (fun _ => rfl) fun _ => rfl

theorem valueGroup_moved (keyword : ValueKeyword) (tokens : List Token) :
    valueGroup keyword (tokens.map (Token.moved offset)) =
      movedRead offset id (valueGroup keyword tokens) := by
  have each : ∀ rest, rest <:+ tokens → single (valueSpec (rest.map (Token.moved offset))) =
      movedRead offset (Prod.map (List.map id) id) (single (valueSpec rest)) := by
    intro rest _
    rw [valueSpec_moved, ← Prod.map_id, single_moved]
  have specs : valueGroup keyword (tokens.map (Token.moved offset)) =
      movedRead offset (Prod.map (List.map id) id) (valueGroup keyword tokens) :=
    itemsUntil_moved offset rfl each
  rw [List.map_id_fun, Prod.map_id] at specs
  exact specs

theorem valueSpecs_moved (keyword : ValueKeyword) (tokens : List Token) :
    valueSpecs keyword (tokens.map (Token.moved offset)) =
      movedRead offset id (valueSpecs keyword tokens) := by
  unfold valueSpecs
  rw [nextIs_moved, ← List.map_drop, valueGroup_moved, valueSpec_moved]
  refine movedRead_ite (fun _ => movedRead_bind fun _ => rfl) fun _ => ?_
  exact movedRead_map _ fun _ => rfl

variable {offset}

/-- Values move with the comment over them. -/
theorem valueDeclaration_moved {docs other : Docs} {keyword : ValueKeyword} {line : Nat}
    (doc : other.above (line + offset) = docs.above line) (tokens : List Token) :
    valueDeclaration other keyword (line + offset) (tokens.map (Token.moved offset)) =
      movedRead offset (Prod.map (ValueDeclaration.moved offset) id)
        (valueDeclaration docs keyword line tokens) := by
  unfold valueDeclaration
  rw [valueSpecs_moved, doc]
  exact movedRead_bind fun _ => rfl

/-! ### Functions -/

variable (offset)

theorem skipped_moved (tokens : List Token) :
    (skipBalanced (tokens.map (Token.moved offset))).map Prod.snd =
      movedRead offset id ((skipBalanced tokens).map Prod.snd) := by
  rw [skipBalanced_moved, map_snd_moved]

theorem skipIfNext_moved (bracket : String) (tokens : List Token) :
    skipIfNext bracket (tokens.map (Token.moved offset)) =
      movedRead offset id (skipIfNext bracket tokens) := by
  unfold skipIfNext
  rw [nextIs_moved, skipped_moved]
  exact movedRead_ite (fun _ => rfl) fun _ => rfl

theorem receiverType_moved (tokens : List Token) :
    receiverType (tokens.map (Token.moved offset)) = receiverType tokens := by
  match tokens with
  | [] => rfl
  | [token] => rfl
  | name :: second :: rest =>
    have whole := join_moved offset (name :: second :: rest)
    have tail := join_moved offset (second :: rest)
    simp only [List.map_cons] at whole tail
    simp only [receiverType, List.map_cons, whole, tail]
    rfl

/-- The type of a receiver is the same. -/
theorem receiver_moved (tokens : List Token) :
    receiver (tokens.map (Token.moved offset)) = movedRead offset id (receiver tokens) := by
  unfold receiver
  rw [nextIs_moved, skipBalanced_moved]
  refine movedRead_ite (fun _ => movedRead_bind fun inner => ?_) fun _ => rfl
  simp only [Prod.map_fst, receiverType_moved]
  rfl

theorem skipParameters_moved (tokens : List Token) :
    skipParameters (tokens.map (Token.moved offset)) =
      movedRead offset id (skipParameters tokens) := by
  unfold skipParameters
  rw [nextIs_moved, skipped_moved, List.head?_map]
  exact movedRead_ite (fun _ => rfl) fun _ => rfl

theorem skipResults_moved (tokens : List Token) :
    skipResults (tokens.map (Token.moved offset)) =
      movedRead offset id (skipResults tokens) := by
  unfold skipResults
  rw [nextIs_moved, startsType_moved, skipped_moved, typeUsed_moved]
  exact movedRead_ite (fun _ => rfl) fun _ => movedRead_ite (fun _ => rfl) fun _ => rfl

variable {offset}

/-- Functions move with the comment over them. -/
theorem functionDeclaration_moved {docs other : Docs} {keyword : Token}
    (doc : other.above (keyword.line + offset) = docs.above keyword.line) (tokens : List Token) :
    functionDeclaration other (keyword.moved offset) (tokens.map (Token.moved offset)) =
      movedRead offset (Prod.map (FunctionDeclaration.moved offset) id)
        (functionDeclaration docs keyword tokens) := by
  have ownDoc : other.above (keyword.moved offset).line = docs.above keyword.line := doc
  unfold functionDeclaration
  simp only [← List.map_drop, receiver_moved, identifier_moved, skipIfNext_moved,
    skipParameters_moved, skipResults_moved, ownDoc]
  exact movedRead_bind fun _ => movedRead_bind fun _ => movedRead_bind fun _ =>
    movedRead_bind fun _ => movedRead_bind fun _ => movedRead_bind fun _ => rfl

/-! ### Files -/

/-- A declaration moves, whatever its keyword. -/
theorem topLevel_moved {docs other : Docs} {keyword : Token} {rest : List Token}
    (agrees : docs.Agrees offset other (keyword :: rest)) :
    topLevel other (keyword.moved offset) (rest.map (Token.moved offset)) =
      movedRead offset (Prod.map (List.map (Declaration.moved offset)) id)
        (topLevel docs keyword rest) := by
  have doc := agrees keyword List.mem_cons_self
  have line : (keyword.moved offset).line = keyword.line + offset := rfl
  have run : (rest.map (Token.moved offset)).takeWhile (fun token => !token.is ";") =
      (rest.takeWhile fun token => !token.is ";").map (Token.moved offset) :=
    List.takeWhile_map
  unfold topLevel
  rw [identifier_moved, nextIs_moved, skipBalanced_moved, run, List.length_map,
    typeDeclaration_moved agrees, line, valueDeclaration_moved doc, valueDeclaration_moved doc,
    functionDeclaration_moved doc]
  refine movedRead_ite (fun _ => rfl) fun _ => movedRead_ite (fun _ => movedRead_bind fun _ => rfl)
    fun _ => movedRead_ite (fun _ => ?_) fun _ => movedRead_ite (fun _ => ?_) fun _ =>
    movedRead_ite (fun _ => movedRead_bind fun _ => rfl) fun _ =>
    movedRead_ite (fun _ => movedRead_bind fun _ => rfl) fun _ =>
    movedRead_ite (fun _ => movedRead_bind fun _ => rfl) fun _ => rfl
  · exact movedRead_ite (fun _ => movedRead_bind fun _ => rfl) fun _ => rfl
  · refine movedRead_bind fun types => ?_
    simp [movedRead, pure, Except.pure, Declaration.moved]

/-- Declarations that have the same comments over them are the same but for their lines. -/
theorem declarations_moved {docs other : Docs} {tokens : List Token}
    (agrees : docs.Agrees offset other tokens) :
    declarations other (tokens.map (Token.moved offset)) =
      movedRead offset (List.map (Declaration.moved offset)) (declarations docs tokens) := by
  induction tokens using drop_induction with
  | nil =>
    rw [List.map_nil, declarations, declarations]
    rfl
  | cons token rest behind =>
    have tail : ∀ count, declarations other ((rest.map (Token.moved offset)).drop count) =
        movedRead offset (List.map (Declaration.moved offset))
          (declarations docs (rest.drop count)) := by
      intro count
      rw [← List.map_drop]
      exact behind count (agrees.tail.drop count)
    have whole := tail 0
    rw [List.drop_zero, List.drop_zero] at whole
    rw [List.map_cons, declarations, declarations, whole, topLevel_moved agrees]
    refine movedRead_ite (fun _ => rfl) fun _ => movedRead_bind fun read => ?_
    simp only [Prod.map_snd, id, tail]
    rw [← List.map_drop, expect_moved, List.isEmpty_map]
    refine movedRead_ite (fun _ => movedRead_bind fun _ => movedRead_bind fun others => ?_)
      fun _ => movedRead_bind fun others => ?_
    · simp [movedRead, pure, Except.pure]
    · simp [movedRead, pure, Except.pure]

end GoApiDoc.Go
