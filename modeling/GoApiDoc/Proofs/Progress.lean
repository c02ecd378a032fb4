/-
This file says that reading always gets on. Wherever among the tokens a production starts, it fails
or leaves the cursor further on, and never past the end; what may read nothing at all at least never
takes the cursor back.

So every loop ends. A loop is given here by one round of it, with what the further rounds give as an
argument, and the rounds take up the tokens just where a production has left the cursor: nothing in
them makes the tokens fewer but the production. A round that asks only about what lies further on
needs no more rounds than there are tokens. Whatever stands for the rounds beyond that number is
never looked at.
-/

import GoApiDoc.Proofs.Nesting

namespace GoApiDoc.Go

/-! ### Cursors -/

section

variable {Value Result : Type}

/-- The production started at a cursor: what it reads, with the cursor behind it. -/
def readAt (read : List Token → Except ReadFault (Value × Nat)) (tokens : List Token)
    (cursor : Nat) : Except ReadFault (Value × Nat) :=
  (read (tokens.drop cursor)).map fun (value, used) => (value, cursor + used)

/-- From any place among the tokens the production fails or leaves the cursor further on, and not
past the end. -/
def Advances (read : List Token → Except ReadFault (Value × Nat)) : Prop :=
  ∀ tokens cursor value next, cursor ≤ tokens.length →
    readAt read tokens cursor = .ok (value, next) → cursor < next ∧ next ≤ tokens.length

/-- From any place among the tokens the production fails or leaves the cursor there or further on,
and not past the end. -/
def StaysOn (read : List Token → Except ReadFault (Value × Nat)) : Prop :=
  ∀ tokens cursor value next, cursor ≤ tokens.length →
    readAt read tokens cursor = .ok (value, next) → cursor ≤ next ∧ next ≤ tokens.length

namespace Advances

variable {read : List Token → Except ReadFault (Value × Nat)}

/-- It is enough to count the tokens used at the start of any tokens. -/
theorem of_used (each : ∀ tokens value used, read tokens = .ok (value, used) →
    0 < used ∧ used ≤ tokens.length) : Advances read := by
  intro tokens cursor value next inside found
  obtain ⟨⟨found, used⟩, read, same⟩ := map_eq_ok.mp found
  obtain ⟨rfl, rfl⟩ := Prod.mk.inj same
  obtain ⟨positive, le⟩ := each _ _ _ read
  rw [List.length_drop] at le
  omega

/-- At the start of the tokens the cursor is the number of tokens used. -/
theorem used (advances : Advances read) {tokens : List Token} {value : Value} {used : Nat}
    (found : read tokens = .ok (value, used)) : 0 < used ∧ used ≤ tokens.length := by
  refine advances tokens 0 value used (Nat.zero_le _) ?_
  simp [readAt, found, Except.map]

theorem pos (advances : Advances read) {tokens : List Token} {value : Value} {used : Nat}
    (found : read tokens = .ok (value, used)) : 0 < used :=
  (advances.used found).1

theorem le_length (advances : Advances read) {tokens : List Token} {value : Value} {used : Nat}
    (found : read tokens = .ok (value, used)) : used ≤ tokens.length :=
  (advances.used found).2

/-- What is read behind some of the tokens ends with the tokens at the latest. -/
theorem le_length_behind (advances : Advances read) {tokens : List Token} {count : Nat}
    {value : Value} {used : Nat} (found : read (tokens.drop count) = .ok (value, used)) :
    count + used ≤ tokens.length := by
  obtain ⟨positive, le⟩ := advances.used found
  rw [List.length_drop] at le
  omega

theorem single (advances : Advances read) : Advances fun tokens => single (read tokens) := by
  refine .of_used fun tokens found used readItem => ?_
  obtain ⟨item, readOne, -⟩ := single_eq_ok.mp readItem
  exact advances.used readOne

end Advances

namespace StaysOn

variable {read : List Token → Except ReadFault (Value × Nat)}

theorem of_used (each : ∀ tokens value used, read tokens = .ok (value, used) →
    used ≤ tokens.length) : StaysOn read := by
  intro tokens cursor value next inside found
  obtain ⟨⟨found, used⟩, read, same⟩ := map_eq_ok.mp found
  obtain ⟨rfl, rfl⟩ := Prod.mk.inj same
  have le := each _ _ _ read
  rw [List.length_drop] at le
  omega

theorem le_length (stays : StaysOn read) {tokens : List Token} {value : Value} {used : Nat}
    (found : read tokens = .ok (value, used)) : used ≤ tokens.length := by
  refine (stays tokens 0 value used (Nat.zero_le _) ?_).2
  simp [readAt, found, Except.map]

theorem le_length_behind (stays : StaysOn read) {tokens : List Token} {count : Nat}
    (inside : count ≤ tokens.length) {value : Value} {used : Nat}
    (found : read (tokens.drop count) = .ok (value, used)) : count + used ≤ tokens.length := by
  have le := stays.le_length found
  rw [List.length_drop] at le
  omega

end StaysOn

end

/-- A token that comes next is there. -/
theorem lt_length_of_nextIs {text : String} {tokens : List Token} {count : Nat}
    (next : nextIs text (tokens.drop count)) : count < tokens.length := by
  refine Nat.lt_of_not_le fun past => ?_
  rw [List.drop_of_length_le past] at next
  nomatch next

/-! ### Productions -/

/-- A bracketed run holds its two brackets at least. -/
theorem advances_skipBalanced : Advances skipBalanced := by
  refine .of_used fun tokens inner used read => ?_
  obtain ⟨positive, reads⟩ : _ ∧ Reads 0 _ _ _ := reads_of_skipBalanced read
  exact ⟨positive, reads.le_length⟩

/-- Every branch uses its first token, and goes on behind it. -/
theorem advances_typeRef : Advances typeRef := by
  refine .of_used fun tokens type used read => ⟨pos_of_typeRef read, ?_⟩
  induction tokens using drop_induction generalizing type used with
  | nil => simp [typeRef] at read
  | cons token rest behind =>
    refine (typeForm_of_typeRef read).add_le_length (Nat.zero_le _) ?_ ?_ ?_ ?_
    · intro count type used inner
      have le := behind count _ _ inner
      have positive := pos_of_typeRef inner
      rw [List.length_drop] at le
      omega
    · intro count inner used skip
      rw [Nat.add_zero]
      exact Advances.le_length_behind advances_skipBalanced skip
    · intro count closed
      exact lt_length_of_nextIs closed
    · intro dot name tail _ _ _
      exact Nat.zero_le tail.length

/-- A list of items uses the token that closes it. -/
theorem advances_itemsUntil {Item : Type} {closer : String} {unclosed : ReadFault}
    {item : List Token → Except ReadFault (List Item × Nat)} (advances : Advances item) :
    Advances (itemsUntil closer unclosed item) := by
  refine .of_used fun tokens found used read => ?_
  rw [itemsUntil_eq_ok] at read
  induction read with
  | closed closes => exact ⟨Nat.one_pos, Nat.succ_le_succ (Nat.zero_le _)⟩
  | separator goesOn ends _ le => exact ⟨Nat.succ_pos _, Nat.succ_le_succ le.2⟩
  | @item token rest own others ownUsed othersUsed goesOn starts readOwn _ _ inductionHypothesis =>
    have positive := advances.pos readOwn
    have own := advances.le_length readOwn
    rw [drop_behind token rest positive, List.length_drop] at inductionHypothesis
    omega

theorem advances_identifierList : Advances identifierList := by
  refine .of_used fun tokens names used read => ?_
  obtain ⟨positive, reads⟩ : _ ∧ Reads 0 _ _ _ := reads_of_identifierList read
  exact ⟨positive, reads.le_length⟩

theorem staysOn_fieldTag : StaysOn fieldTag := by
  refine .of_used fun tokens tag used read => ?_
  have reads : Reads 0 _ _ _ := reads_of_fieldTag read
  exact reads.le_length

/-- A field line has a type, which uses a token. -/
theorem advances_fieldDeclaration : Advances fieldDeclaration := by
  refine .of_used fun tokens fields used read => ?_
  obtain ⟨-, type, typeUsed, tag, tagUsed, readType, readTag, -, rfl⟩ |
    ⟨-, names, namesUsed, type, typeUsed, tag, tagUsed, readNames, readType, readTag, -, rfl⟩ :=
    fieldDeclaration_eq_ok read
  · have positive := pos_of_typeRef readType
    have typed := Advances.le_length advances_typeRef readType
    have tagged := StaysOn.le_length_behind staysOn_fieldTag (by omega) readTag
    omega
  · have positive := pos_of_typeRef readType
    have typed := Advances.le_length_behind advances_typeRef readType
    have tagged := StaysOn.le_length_behind staysOn_fieldTag typed readTag
    omega

theorem advances_structFields : Advances structFields := by
  refine .of_used fun tokens fields used read => ?_
  obtain ⟨opener, rest, lines, rfl, -, readLines, rfl⟩ := structFields_eq_ok read
  have le := (advances_itemsUntil advances_fieldDeclaration).le_length readLines
  rw [List.length_cons]
  omega

/-- A type is declared by its fields behind a keyword or by another type. -/
theorem advances_typeBody : Advances typeBody := by
  refine .of_used fun tokens found used read => ?_
  obtain ⟨fields, underlying⟩ := found
  obtain ⟨keyword, rest, found, bodyUsed, rfl, -, -, readBody, -, -, rfl⟩ |
    ⟨-, type, readType, -, -⟩ := typeBody_eq_ok read
  · have le := Advances.le_length advances_structFields readBody
    rw [List.length_cons]
    omega
  · exact Advances.used advances_typeRef readType

theorem advances_typeSpec (doc groupDoc : String) : Advances (typeSpec doc groupDoc) := by
  refine .of_used fun tokens found used read => ?_
  obtain ⟨name, rest, parameters, mark, fields, underlying, bodyUsed, rfl, -, -, -, readBody, -,
    rfl⟩ := typeSpec_eq_ok read
  have le := Advances.le_length_behind advances_typeBody readBody
  rw [List.length_cons]
  omega

theorem advances_groupedType (docs : Docs) (groupDoc : String) :
    Advances fun tokens => single (typeSpec (docs.aboveNext tokens) groupDoc tokens) := by
  refine .of_used fun tokens found used read => ?_
  obtain ⟨item, readItem, -⟩ := single_eq_ok.mp read
  exact Advances.used (advances_typeSpec _ groupDoc) readItem

/-- The types in parentheses are a list of items, and a single one uses its name. -/
theorem advances_typeDeclaration (docs : Docs) (keyword : Token) :
    Advances (typeDeclaration docs keyword) := by
  refine .of_used fun tokens found used read => ?_
  obtain ⟨opener, rest, group, rfl, -, readGroup, rfl⟩ | ⟨-, spec, readSpec, -⟩ :=
    typeDeclaration_eq_ok read
  · have le := (advances_itemsUntil (advances_groupedType docs _)).le_length readGroup
    rw [List.length_cons]
    omega
  · exact Advances.used (advances_typeSpec _ _) readSpec

/-- A value has names in front; its initialisers may use nothing more. -/
theorem advances_valueSpec : Advances valueSpec := by
  refine .of_used fun tokens found used read => ?_
  obtain ⟨names, namesUsed, typeUsed, readNames, readType, branch⟩ := valueSpec_eq_ok read
  have named := Advances.le_length advances_identifierList readNames
  have positive := Advances.pos advances_identifierList readNames
  have typed : namesUsed + typeUsed ≤ tokens.length := by
    obtain ⟨-, rfl⟩ | ⟨-, type, readType⟩ := skipValueType_eq_ok readType
    · omega
    · exact Advances.le_length_behind advances_typeRef readType
  obtain ⟨mark, rest, behind, -, -, rfl⟩ | ⟨-, -, rfl⟩ := branch
  · have le := initialisers_le_length 0 [] rest
    have left := congrArg List.length behind
    rw [List.length_drop, List.length_cons] at left
    omega
  · omega

theorem advances_valueDeclaration (docs : Docs) (keyword : ValueKeyword) (line : Nat) :
    Advances (valueDeclaration docs keyword line) := by
  refine .of_used fun tokens found used read => ?_
  obtain ⟨specs, -, branch⟩ := valueDeclaration_eq_ok read
  obtain ⟨opener, rest, group, rfl, -, readGroup, rfl⟩ | ⟨-, spec, readSpec, -⟩ := branch
  · have le := (advances_itemsUntil (.single advances_valueSpec)).le_length readGroup
    rw [List.length_cons]
    omega
  · exact Advances.used advances_valueSpec readSpec

/-- A function has its name; every run that is skipped ends with the tokens at the latest. -/
theorem advances_functionDeclaration (docs : Docs) (keyword : Token) :
    Advances (functionDeclaration docs keyword) := by
  refine .of_used fun tokens found used read => ?_
  obtain ⟨receiverText, receiverUsed, name, signature, typeParameters, parameters, results, body,
    readReceiver, behind, -, readTypeParameters, readParameters, readResults, readBody, -,
    rfl⟩ := functionDeclaration_eq_ok read
  have left := congrArg List.length behind
  rw [List.length_drop, List.length_cons] at left
  obtain ⟨skipped, skip⟩ := skipParameters_eq_ok readParameters
  have headed := Advances.le_length_behind advances_skipBalanced skip
  have resulted : typeParameters + parameters + results ≤ signature.length := by
    obtain ⟨-, skipped, skip⟩ | ⟨-, -, type, readType⟩ | ⟨-, -, rfl⟩ :=
      skipResults_eq_ok readResults
    · exact Advances.le_length_behind advances_skipBalanced skip
    · exact Advances.le_length_behind advances_typeRef readType
    · exact headed
  obtain rfl | ⟨skipped, skip⟩ := skipIfNext_eq_ok readBody
  · omega
  · have bodied := Advances.le_length_behind advances_skipBalanced skip
    omega

/-- The keyword of a declaration is used in each of its forms. -/
theorem advances_topLevel (docs : Docs) {keyword : Token} {rest : List Token}
    {found : List Declaration} {used : Nat}
    (read : topLevel docs keyword rest = .ok (found, used)) :
    0 < used ∧ used ≤ (keyword :: rest).length := by
  obtain ⟨-, form⟩ := topForm_of_topLevel read
  rw [List.length_cons]
  cases form with
  | package text named kind =>
    rw [named, List.length_cons]
    omega
  | importGroup text opened skip =>
    have le := Advances.le_length advances_skipBalanced skip
    omega
  | importLine text unopened =>
    have le := (List.takeWhile_prefix (l := rest) fun token => !token.is ";").length_le
    omega
  | type text readType =>
    have le := (advances_typeDeclaration docs keyword).le_length readType
    omega
  | value valueKeyword text readValue =>
    have le := (advances_valueDeclaration docs valueKeyword _).le_length readValue
    omega
  | function text readFunction =>
    have le := (advances_functionDeclaration docs keyword).le_length readFunction
    omega

/-- Initialisers end at once where none are left. -/
theorem staysOn_initialisers : StaysOn fun tokens => .ok (initialisers 0 [] tokens) := by
  refine .of_used fun tokens values used read => ?_
  have le := initialisers_le_length 0 [] tokens
  rw [Except.ok.inj read] at le
  exact le

/-- The end of a statement is a semicolon, which is used, or the end of the tokens. -/
def endStatement (tokens : List Token) : Except ReadFault (Unit × Nat) :=
  if tokens.isEmpty then .ok ((), 0) else (expect ";" tokens).map fun _ => ((), 1)

theorem staysOn_endStatement : StaysOn endStatement := by
  refine .of_used fun tokens ended used read => ?_
  cases tokens with
  | nil =>
    obtain ⟨-, rfl⟩ := Prod.mk.inj (Except.ok.inj read)
    exact Nat.le_refl 0
  | cons token rest =>
    obtain ⟨-, -, same⟩ := map_eq_ok.mp read
    obtain ⟨-, rfl⟩ := Prod.mk.inj same
    exact Nat.succ_le_succ (Nat.zero_le _)

/-! ### Loops -/

section

variable {Value : Type}

/-- A loop with a number of rounds: each round is given what the rounds behind it give, the last one
what stands for all that are left out. -/
def withRounds (round : (List Token → Value) → List Token → Value) (spent : List Token → Value) :
    Nat → List Token → Value
  | 0 => spent
  | count + 1 => round (withRounds round spent count)

/-- The two give the same for whatever lies further on. -/
def SameFurther (first second : List Token → Value) (tokens : List Token) : Prop :=
  ∀ behind, behind <:+ tokens → behind.length < tokens.length → first behind = second behind

/-- A round asks only about what lies further on. -/
def GoesOn (round : (List Token → Value) → List Token → Value) : Prop :=
  ∀ first second tokens, SameFurther first second tokens →
    round first tokens = round second tokens

/-- The loop ends with the result: more rounds than there are tokens are never needed, whatever
stands for those beyond the bound. -/
def EndsWith (round : (List Token → Value) → List Token → Value) (tokens : List Token)
    (result : Value) : Prop :=
  ∀ count spent, tokens.length < count → withRounds round spent count tokens = result

/-- A loop that goes on ends, and what it ends with is what goes through a round unchanged. -/
theorem GoesOn.endsWith {round : (List Token → Value) → List Token → Value} (goesOn : GoesOn round)
    {loop : List Token → Value} {tokens : List Token}
    (unchanged : ∀ behind, behind <:+ tokens → round loop behind = loop behind) :
    EndsWith round tokens (loop tokens) := by
  intro count spent enough
  induction count generalizing tokens with
  | zero => nomatch enough
  | succ count inductionHypothesis =>
    rw [withRounds, ← unchanged tokens List.suffix_rfl]
    refine goesOn _ _ tokens fun behind suffix less => ?_
    exact inductionHypothesis (fun others inside => unchanged others (inside.trans suffix))
      (by omega)

/-- A loop that goes on ends, whether or not its result is known otherwise. -/
theorem GoesOn.exists_endsWith {round : (List Token → Value) → List Token → Value}
    (goesOn : GoesOn round) (spent : List Token → Value) (tokens : List Token) :
    ∃ result, EndsWith round tokens result := by
  -- The result with one round more than there are tokens goes through a round unchanged.
  have same : ∀ count tokens, tokens.length < count → ∀ other more, tokens.length < more →
      withRounds round spent count tokens = withRounds round other more tokens := by
    intro count
    induction count with
    | zero => exact fun tokens less => nomatch less
    | succ count inductionHypothesis =>
      intro tokens enough other more enoughMore
      cases more with
      | zero => nomatch enoughMore
      | succ more =>
        refine goesOn _ _ tokens fun behind _ less => ?_
        exact inductionHypothesis behind (by omega) other more (by omega)
  exact ⟨withRounds round spent (tokens.length + 1) tokens, fun count other enough =>
    (same _ tokens (Nat.lt_succ_self _) other count enough).symm⟩

end

/-- Skipping to the bracket that closes those that are open. -/
def skipRound (others : List Token → Nat → Option (List Token)) (tokens : List Token)
    (depth : Nat) : Option (List Token) :=
  match tokens with
  | [] => none
  | token :: rest =>
    if token.isOpener then (others rest (depth + 1)).map (token :: ·)
    else if token.isCloser then
      match depth with
      | 0 => some []
      | depth + 1 => (others rest depth).map (token :: ·)
    else (others rest depth).map (token :: ·)

/-- Reading names with commas between them. -/
def namesRound (others : List Token → Except ReadFault (List String × Nat)) (tokens : List Token) :
    Except ReadFault (List String × Nat) := do
  let name ← identifier tokens
  if nextIs "," (tokens.drop 1) then
    let (names, used) ← others (tokens.drop 2)
    return (name.text :: names, used + 2)
  return ([name.text], 1)

/-- Reading initialisers. -/
def initialisersRound (others : List Token → Int → List Token → List String × Nat)
    (tokens : List Token) (depth : Int) (current : List Token) : List String × Nat :=
  match tokens with
  | [] => (if current.isEmpty then [] else [Token.join current.reverse], 0)
  | token :: rest =>
    if depth = 0 ∧ (token.kind = .semicolon ∨ token.isOp ")") then
      (if current.isEmpty then [] else [Token.join current.reverse], 0)
    else if depth = 0 ∧ token.isOp "," then
      let (values, used) := others rest depth []
      (Token.join current.reverse :: values, used + 1)
    else
      let depth := if token.isOpener then depth + 1 else if token.isCloser then depth - 1 else depth
      let (values, used) := others rest depth (token :: current)
      (values, used + 1)

/-- Reading a type, with the types inside it read by the further rounds. -/
def typeRound (others : List Token → Except ReadFault (TypeRef × Nat)) (tokens : List Token) :
    Except ReadFault (TypeRef × Nat) :=
  match tokens with
  | [] => .error (.unexpected .typeExpression none)
  | token :: rest =>
    match token.kind with
    | .op =>
      if token.text = "*" then do
        let (element, used) ← others rest
        return (.pointer element, used + 1)
      else if token.text = "(" then do
        let (inner, used) ← others rest
        expect ")" (rest.drop used)
        return (inner, used + 2)
      else if token.text = "[" then do
        let length := rest.takeWhile fun token => !token.is "]"
        if length.length = rest.length then throw (.unexpected .moreInput none)
        let (element, used) ← others (rest.drop (length.length + 1))
        let spelling := if length.isEmpty then none else some (Token.join length)
        return (.sequence element spelling, length.length + used + 2)
      else if token.text = "<-" then do
        expect "chan" rest
        let (_, used) ← others (rest.drop 1)
        return (.other (Token.join (tokens.take (used + 2))), used + 2)
      else .error (.unexpected .typeExpression (some token))
    | .keyword =>
      if token.text = "map" then do
        expect "[" rest
        let (key, keyUsed) ← others (rest.drop 1)
        expect "]" (rest.drop (keyUsed + 1))
        let (value, valueUsed) ← others (rest.drop (keyUsed + 2))
        return (.mapping key value, keyUsed + valueUsed + 3)
      else if token.text = "chan" then do
        let arrow := if nextIs "<-" rest then 1 else 0
        let (_, used) ← others (rest.drop arrow)
        return (.other (Token.join (tokens.take (used + arrow + 1))), used + arrow + 1)
      else if token.text = "interface" ∨ token.text = "struct" then do
        let (_, used) ← skipBalanced rest
        return (.other (Token.join (tokens.take (used + 1))), used + 1)
      else if token.text = "func" then do
        let (_, parameters) ← skipBalanced rest
        let after := rest.drop parameters
        if nextIs "(" after then
          let (_, results) ← skipBalanced after
          return (.other (Token.join (tokens.take (parameters + results + 1))),
            parameters + results + 1)
        else if startsType after then
          let (_, result) ← others after
          return (.other (Token.join (tokens.take (parameters + result + 1))),
            parameters + result + 1)
        else
          return (.other (Token.join (tokens.take (parameters + 1))), parameters + 1)
      else .error (.unexpected .typeExpression (some token))
    | .ident => do
      let (ref, used) := match rest with
        | dot :: name :: _ =>
          if dot.is "." ∧ name.kind = .ident then (.qualified token.text name.text, 3)
          else (.named token.text, 1)
        | _ => ((.named token.text, 1) : TypeRef × Nat)
      if nextIs "[" (tokens.drop used) then
        let (_, arguments) ← skipBalanced (tokens.drop used)
        return (.other (Token.join (tokens.take (used + arguments))), used + arguments)
      return (ref, used)
    | _ => .error (.unexpected .typeExpression (some token))

/-- Reading the items of a list: a semicolon that must follow an item is used with it. -/
def itemsRound {Item : Type} (closer : String) (unclosed : ReadFault)
    (item : List Token → Except ReadFault (List Item × Nat))
    (others : List Token → Except ReadFault (List Item × Nat)) (tokens : List Token) :
    Except ReadFault (List Item × Nat) :=
  match tokens with
  | [] => .error unclosed
  | token :: rest =>
    if token.is closer then .ok ([], 1)
    else if token.is ";" then do
      let (items, used) ← others rest
      return (items, used + 1)
    else do
      let (items, used) ← item tokens
      let after := tokens.drop used
      if nextIs closer after then
        let (more, moreUsed) ← others after
        return (items ++ more, used + moreUsed)
      expect ";" after
      let (more, moreUsed) ← others (after.drop 1)
      return (items ++ more, used + 1 + moreUsed)

/-- Reading the declarations of a file. -/
def fileRound (docs : Docs) (others : List Token → Except ReadFault (List Declaration))
    (tokens : List Token) : Except ReadFault (List Declaration) :=
  match tokens with
  | [] => .ok []
  | token :: rest =>
    if token.kind = .semicolon then others rest
    else do
      let (found, used) ← topLevel docs token rest
      let (_, ended) ← endStatement (tokens.drop used)
      let more ← others (tokens.drop (used + ended))
      return found ++ more

/-- Passing over tokens up to one of this spelling. -/
def passRound (text : String) (others : List Token → List Token) (tokens : List Token) :
    List Token :=
  match tokens with
  | [] => []
  | token :: rest => if token.is text then [] else token :: others rest

section

variable {Value : Type} {first second : List Token → Value} {token : Token} {rest : List Token}

/-- What lies behind any of the tokens lies further on. -/
theorem SameFurther.drop (same : SameFurther first second (token :: rest)) {count : Nat}
    (positive : 0 < count) :
    first ((token :: rest).drop count) = second ((token :: rest).drop count) := by
  refine same _ (List.drop_suffix count _) ?_
  rw [List.length_drop, List.length_cons]
  omega

theorem SameFurther.behind (same : SameFurther first second (token :: rest)) (count : Nat) :
    first (rest.drop count) = second (rest.drop count) :=
  same.drop (Nat.succ_pos count)

theorem SameFurther.tail (same : SameFurther first second (token :: rest)) :
    first rest = second rest :=
  same.behind 0

end

theorem goesOn_passRound (text : String) : GoesOn (passRound text) := by
  intro first second tokens same
  cases tokens with
  | nil => rfl
  | cons token rest => simp only [passRound, same.tail]

/-- The rest is asked about behind the first token, whatever the depth. -/
theorem goesOn_skipRound : GoesOn skipRound := by
  intro first second tokens same
  funext depth
  cases tokens with
  | nil => rfl
  | cons token rest => simp only [skipRound, same.tail]

theorem goesOn_namesRound : GoesOn namesRound := by
  intro first second tokens same
  cases tokens with
  | nil => rfl
  | cons token rest => simp only [namesRound, List.drop_succ_cons, same.behind]

theorem goesOn_initialisersRound : GoesOn initialisersRound := by
  intro first second tokens same
  funext depth current
  cases tokens with
  | nil => rfl
  | cons token rest => simp only [initialisersRound, same.tail]

/-- The types inside a type stand behind its first token. -/
theorem goesOn_typeRound : GoesOn typeRound := by
  intro first second tokens same
  cases tokens with
  | nil => rfl
  | cons token rest => simp only [typeRound, same.behind, same.tail]

/-- An item uses a token, so the further items stand behind it. -/
theorem goesOn_itemsRound {Item : Type} {closer : String} {unclosed : ReadFault}
    {item : List Token → Except ReadFault (List Item × Nat)} (advances : Advances item) :
    GoesOn (itemsRound closer unclosed item) := by
  intro first second tokens same
  cases tokens with
  | nil => rfl
  | cons token rest =>
    simp only [itemsRound, same.tail]
    cases readItem : item (token :: rest) with
    | error fault => rfl
    | ok found =>
      obtain ⟨items, used⟩ := found
      have positive := advances.pos readItem
      simp only [bind, Except.bind, List.drop_drop, same.drop positive,
        same.drop (Nat.succ_pos used)]

/-- A declaration uses its keyword, so the further declarations stand behind it. -/
theorem goesOn_fileRound (docs : Docs) : GoesOn (fileRound docs) := by
  intro first second tokens same
  cases tokens with
  | nil => rfl
  | cons token rest =>
    simp only [fileRound, same.tail]
    cases readItem : topLevel docs token rest with
    | error fault => rfl
    | ok found =>
      obtain ⟨found, used⟩ := found
      have positive := (advances_topLevel docs readItem).1
      have further : ∀ ended, first ((token :: rest).drop (used + ended)) =
          second ((token :: rest).drop (used + ended)) :=
        fun ended => same.drop (by omega)
      simp only [bind, Except.bind, further]

/-! ### What the loops end with -/

theorem passRound_takeWhile (text : String) (tokens : List Token) :
    passRound text (List.takeWhile fun token => !token.is text) tokens =
      tokens.takeWhile fun token => !token.is text := by
  cases tokens with
  | nil => rfl
  | cons token rest =>
    rw [passRound, List.takeWhile_cons]
    cases token.is text <;> rfl

theorem skipRound_insideBrackets (tokens : List Token) :
    skipRound (fun others depth => insideBrackets depth others) tokens =
      fun depth => insideBrackets depth tokens := by
  funext depth
  cases tokens <;> rfl

theorem namesRound_identifierList (tokens : List Token) :
    namesRound identifierList tokens = identifierList tokens := by
  cases tokens with
  | nil => rfl
  | cons token rest =>
    rw [namesRound]
    conv => rhs; unfold identifierList
    by_cases kind : token.kind = .ident
    · rw [identifier, if_pos kind, if_pos kind]
      cases rest <;> rfl
    · rw [identifier, if_neg kind, if_neg kind]
      rfl

theorem initialisersRound_initialisers (tokens : List Token) :
    initialisersRound (fun others depth current => initialisers depth current others) tokens =
      fun depth current => initialisers depth current tokens := by
  funext depth current
  cases tokens <;> rfl

/-- The reader of types goes through a round unchanged. -/
theorem typeRound_typeRef (tokens : List Token) : typeRound typeRef tokens = typeRef tokens := by
  rw [typeRef.eq_def]
  rfl

/-- A token has one spelling. -/
theorem Token.is_eq_false {token : Token} {text other : String} (same : token.is text)
    (apart : other ≠ text) : token.is other = false := by
  have spelled : token.text = text := beq_iff_eq.mp (Bool.and_eq_true_iff.mp same).1
  rw [Token.is, spelled, beq_eq_false_iff_ne.mpr apart.symm, Bool.false_and]

/-- The closing token is no semicolon, so the semicolon demanded behind an item is passed over in
the round that follows. -/
theorem itemsRound_itemsUntil {Item : Type} {closer : String} (apart : closer ≠ ";")
    (unclosed : ReadFault) {item : List Token → Except ReadFault (List Item × Nat)}
    (advances : Advances item) (tokens : List Token) :
    itemsRound closer unclosed item (itemsUntil closer unclosed item) tokens =
      itemsUntil closer unclosed item tokens := by
  have passed : ∀ {after : List Token}, nextIs ";" after →
      itemsUntil closer unclosed item after =
        (itemsUntil closer unclosed item (after.drop 1)).map fun (more, used) =>
          (more, used + 1) := by
    intro after next
    obtain ⟨semicolon, rest, rfl, ends⟩ := nextIs_eq_true.mp next
    rw [itemsUntil, if_neg (ne_true_of_eq_false (Token.is_eq_false ends apart)), if_pos ends]
    exact (map_eq_pure_bind _ _).symm
  cases tokens with
  | nil => rw [itemsRound, itemsUntil]
  | cons token rest =>
    rw [itemsRound, itemsUntil]
    by_cases closes : token.is closer
    · rw [if_pos closes, if_pos closes]
    by_cases ends : token.is ";"
    · rw [if_neg closes, if_neg closes, if_pos ends, if_pos ends]
    rw [if_neg closes, if_neg closes, if_neg ends, if_neg ends]
    cases readItem : item (token :: rest) with
    | error fault => rfl
    | ok found =>
      obtain ⟨items, used⟩ := found
      have positive := advances.pos readItem
      simp only [bind, Except.bind, drop_behind token rest positive]
      generalize (token :: rest).drop used = after
      by_cases next : nextIs closer after
      · simp only [next, Bool.not_true, Bool.false_eq_true, if_true, if_false]
      rw [if_neg next, if_pos (by simpa using next)]
      by_cases semicolon : nextIs ";" after
      · have demanded : expect ";" after = .ok () := expect_eq_ok.mpr semicolon
        rw [demanded, passed semicolon]
        cases itemsUntil closer unclosed item (after.drop 1) with
        | error fault => rfl
        | ok others =>
          simp only [Except.map, Nat.add_assoc, Nat.add_comm 1]
      · rw [expect, if_neg semicolon]

/-- The reader of declarations goes through a round unchanged, since what reads as a semicolon is
one. -/
theorem fileRound_declarations (docs : Docs) {tokens : List Token}
    (cut : ∀ token ∈ tokens, token.is ";" → token.kind = .semicolon) :
    fileRound docs (declarations docs) tokens = declarations docs tokens := by
  have passed : ∀ {after : List Token}, after <:+ tokens → nextIs ";" after →
      declarations docs after = declarations docs (after.drop 1) := by
    intro after suffix next
    obtain ⟨semicolon, rest, rfl, ends⟩ := nextIs_eq_true.mp next
    have kind := cut semicolon (suffix.mem List.mem_cons_self) ends
    rw [declarations, if_pos kind]
    rfl
  cases tokens with
  | nil => rw [fileRound, declarations]
  | cons token rest =>
    rw [fileRound, declarations]
    by_cases kind : token.kind = .semicolon
    · rw [if_pos kind, if_pos kind]
    rw [if_neg kind, if_neg kind]
    cases readItem : topLevel docs token rest with
    | error fault => rfl
    | ok found =>
      obtain ⟨found, used⟩ := found
      have positive := (advances_topLevel docs readItem).1
      have suffix := List.drop_suffix used (token :: rest)
      simp only [bind, Except.bind, drop_behind token rest positive, ← List.drop_drop]
      generalize (token :: rest).drop used = after at suffix
      cases after with
      | nil => rfl
      | cons next behind =>
        by_cases semicolon : nextIs ";" (next :: behind)
        · have demanded : expect ";" (next :: behind) = .ok () := expect_eq_ok.mpr semicolon
          rw [endStatement, if_neg (by simp), demanded, passed suffix semicolon]
          rfl
        · rw [endStatement, if_neg (by simp), expect, if_neg semicolon]
          rfl

/-- In a layout what is spelled as a semicolon is one. -/
theorem kind_of_layoutOf {source : String} {layout : Layout} (laid : layoutOf source = .ok layout) :
    ∀ token ∈ layout.tokens, token.is ";" → token.kind = .semicolon := by
  refine forall_tokens_of_layoutOf (fun line _ => rfl) ?_ laid
  intro first rest kind extra line cut spelled
  have text : String.ofList (first :: rest.take extra) = ";" :=
    beq_iff_eq.mp (Bool.and_eq_true_iff.mp spelled).1
  obtain ⟨rfl, -⟩ : first = ';' ∧ rest.take extra = [] :=
    List.cons.inj (String.ofList_injective text)
  have semicolon : nextLexeme ';' rest = .ok (.token .semicolon, 0) := rfl
  obtain ⟨same, -⟩ := Prod.mk.inj (Except.ok.inj (cut.symm.trans semicolon))
  exact Shape.token.inj same

/-! ### The whole reader -/

/-- A declaration with its keyword, which is passed over first. -/
def withKeyword {Value : Type} (read : Token → List Token → Except ReadFault (Value × Nat))
    (tokens : List Token) : Except ReadFault (Value × Nat) :=
  match tokens with
  | [] => .error (.unexpected .moreInput none)
  | keyword :: rest => (read keyword rest).map fun (value, used) => (value, used + 1)

theorem advances_withKeyword {Value : Type}
    {read : Token → List Token → Except ReadFault (Value × Nat)}
    (advances : ∀ keyword, Advances (read keyword)) : Advances (withKeyword read) := by
  refine .of_used fun tokens value used found => ?_
  cases tokens with
  | nil => nomatch found
  | cons keyword rest =>
    obtain ⟨⟨found, behind⟩, readRest, same⟩ := map_eq_ok.mp found
    obtain ⟨rfl, rfl⟩ := Prod.mk.inj same
    have le := (advances keyword).le_length readRest
    rw [List.length_cons]
    omega

/-- No production takes the cursor back, and none but those that may read nothing leaves it where it
is. -/
structure ReaderAdvances (docs : Docs) : Prop where
  skipBalanced : Advances skipBalanced
  typeRef : Advances typeRef
  fieldDeclaration : Advances fieldDeclaration
  structFields : Advances structFields
  typeSpec : ∀ doc groupDoc, Advances (typeSpec doc groupDoc)
  typeDeclaration : Advances (withKeyword (typeDeclaration docs))
  valueSpec : Advances valueSpec
  valueDeclaration : ∀ kind,
    Advances (withKeyword fun keyword => valueDeclaration docs kind keyword.line)
  functionDeclaration : Advances (withKeyword (functionDeclaration docs))
  fieldTag : StaysOn fieldTag
  initialisers : StaysOn fun tokens => .ok (initialisers 0 [] tokens)
  endStatement : StaysOn endStatement

/-- Every loop ends, and what it ends with is what the reader gives. The loop over a file ends
whatever the tokens are; that it gives what the reader gives is said of the tokens of a layout,
where nothing but a semicolon is spelled as one. -/
structure ReaderEnds (docs : Docs) : Prop where
  passing : ∀ text tokens,
    EndsWith (passRound text) tokens (tokens.takeWhile fun token => !token.is text)
  skipping : ∀ tokens, EndsWith skipRound tokens fun depth => insideBrackets depth tokens
  names : ∀ tokens, EndsWith namesRound tokens (identifierList tokens)
  initialisers : ∀ tokens, EndsWith initialisersRound tokens
    fun depth current => initialisers depth current tokens
  types : ∀ tokens, EndsWith typeRound tokens (typeRef tokens)
  fields : ∀ tokens,
    EndsWith (itemsRound "\x7d" (.unexpected .structEnd none) fieldDeclaration) tokens
      (fieldLines tokens)
  typeSpecs : ∀ groupDoc tokens,
    EndsWith (itemsRound ")" .openTypeGroup fun tokens =>
      single (typeSpec (docs.aboveNext tokens) groupDoc tokens)) tokens
      (typeGroup docs groupDoc tokens)
  valueSpecs : ∀ keyword tokens,
    EndsWith (itemsRound ")" (.unexpected (.groupEnd keyword) none) fun tokens =>
      single (valueSpec tokens)) tokens (valueGroup keyword tokens)
  file : ∀ tokens, ∃ result, EndsWith (fileRound docs) tokens result
  layout : ∀ source layout, layoutOf source = .ok layout →
    EndsWith (fileRound docs) layout.tokens (declarations docs layout.tokens)

/-- Every production of the reader advances or stays on. -/
theorem readerAdvances (docs : Docs) : ReaderAdvances docs where
  skipBalanced := advances_skipBalanced
  typeRef := advances_typeRef
  fieldDeclaration := advances_fieldDeclaration
  structFields := advances_structFields
  typeSpec := advances_typeSpec
  typeDeclaration := advances_withKeyword (advances_typeDeclaration docs)
  valueSpec := advances_valueSpec
  valueDeclaration kind :=
    advances_withKeyword fun keyword => advances_valueDeclaration docs kind keyword.line
  functionDeclaration := advances_withKeyword (advances_functionDeclaration docs)
  fieldTag := staysOn_fieldTag
  initialisers := staysOn_initialisers
  endStatement := staysOn_endStatement

/-- The reader of items gives what the rounds end with, if a semicolon does not close them. -/
theorem endsWith_itemsUntil {Item : Type} {closer : String} (apart : closer ≠ ";")
    (unclosed : ReadFault) {item : List Token → Except ReadFault (List Item × Nat)}
    (advances : Advances item) (tokens : List Token) :
    EndsWith (itemsRound closer unclosed item) tokens (itemsUntil closer unclosed item tokens) :=
  (goesOn_itemsRound advances).endsWith fun behind _ =>
    itemsRound_itemsUntil apart unclosed advances behind

theorem endsWith_declarations (docs : Docs) {tokens : List Token}
    (cut : ∀ token ∈ tokens, token.is ";" → token.kind = .semicolon) :
    EndsWith (fileRound docs) tokens (declarations docs tokens) :=
  (goesOn_fileRound docs).endsWith fun _ suffix =>
    fileRound_declarations docs fun token member => cut token (suffix.mem member)

/-- Every loop of the reader gives what its rounds end with. -/
theorem readerEnds (docs : Docs) : ReaderEnds docs where
  passing text _ := (goesOn_passRound text).endsWith fun behind _ => passRound_takeWhile text behind
  skipping _ := goesOn_skipRound.endsWith fun behind _ => skipRound_insideBrackets behind
  names _ := goesOn_namesRound.endsWith fun behind _ => namesRound_identifierList behind
  initialisers _ :=
    goesOn_initialisersRound.endsWith fun behind _ => initialisersRound_initialisers behind
  types _ := goesOn_typeRound.endsWith fun behind _ => typeRound_typeRef behind
  fields := endsWith_itemsUntil (by decide) _ advances_fieldDeclaration
  typeSpecs groupDoc :=
    endsWith_itemsUntil (by decide) _ (advances_groupedType docs groupDoc)
  valueSpecs _ := endsWith_itemsUntil (by decide) _ (.single advances_valueSpec)
  file := (goesOn_fileRound docs).exists_endsWith fun _ => .ok []
  layout _ _ laid := endsWith_declarations docs (kind_of_layoutOf laid)

/-- Reading gets on wherever it starts, and so every loop of it ends within as many rounds as there
are tokens, one more for the end. -/
theorem reader_progress (docs : Docs) : ReaderAdvances docs ∧ ReaderEnds docs :=
  ⟨readerAdvances docs, readerEnds docs⟩

end GoApiDoc.Go
