/-
This file says why a source has no list of declarations. A production that meets a token it does not
want, or the end of the tokens, says so, and so does one that misses a closing bracket; these faults
have a message with the place. Two faults have none. One is the end of the tokens inside a
parenthesised group of types: here it is shown to arise in no other way, by naming the steps that
lead there. The other is a struct tag with an escape too large to be a code point, and it arises
only where a literal of the source holds such an escape.

Every production is gone through once, with the faults it can end with. A production that reads no
tag ends with an unexpected token or an open bracket only. Tags are read at one place, in the field
lines of a struct, so only types, and what holds them, can end with the fault of a literal.
-/

import GoApiDoc.Proofs.Escapes
import GoApiDoc.Report

namespace GoApiDoc.Go

open Text

/-! ### Outcomes with known faults -/

/-- Every fault is of a kind. -/
def Faults {Value : Type} (kind : ReadFault → Prop) (read : Except ReadFault Value) : Prop :=
  ∀ fault, read = .error fault → kind fault

/-- The faults of a production that has read these tokens: another token than the one wanted, a
bracket that is not closed, or one of the tokens that is no struct tag. -/
def Known (tokens : List Token) : ReadFault → Prop
  | .unexpected _ _ => True
  | .unbalanced _ => True
  | .badTag fault literal =>
    literal ∈ tokens ∧ literal.kind = .string ∧ unquote literal.text = .error fault
  | .lexical _ _ => False
  | .openTypeGroup => False

theorem Known.mono {tokens more : List Token} (subset : tokens ⊆ more) {fault : ReadFault}
    (known : Known tokens fault) : Known more fault := by
  cases fault with
  | badTag fault literal => exact ⟨subset known.1, known.2⟩
  | _ => exact known

/-- The same, or the fault of a list of items that is not closed. -/
def KnownOr (unclosed : ReadFault) (tokens : List Token) (fault : ReadFault) : Prop :=
  fault = unclosed ∨ Known tokens fault

/-- Further tokens take no cause away. -/
theorem KnownOr.mono {unclosed : ReadFault} {tokens more : List Token} (subset : tokens ⊆ more)
    {fault : ReadFault} (known : KnownOr unclosed tokens fault) : KnownOr unclosed more fault :=
  known.imp_right (Known.mono subset)

namespace Faults

variable {Value Result : Type} {kind : ReadFault → Prop} {read : Except ReadFault Value}

theorem ok (value : Value) : Faults kind (.ok value) :=
  nofun

theorem error {fault : ReadFault} (holds : kind fault) :
    Faults kind (.error fault : Except ReadFault Value) := by
  intro other same
  exact Except.error.inj same ▸ holds

theorem imp {others : ReadFault → Prop} (faults : Faults kind read)
    (each : ∀ fault, kind fault → others fault) : Faults others read :=
  fun fault failed => each fault (faults fault failed)

theorem mono {tokens more : List Token} (faults : Faults (Known tokens) read)
    (subset : tokens ⊆ more) : Faults (Known more) read :=
  faults.imp fun _ => Known.mono subset

theorem orUnclosed {unclosed : ReadFault} {tokens : List Token}
    (faults : Faults (Known tokens) read) : Faults (KnownOr unclosed tokens) read :=
  faults.imp fun _ => Or.inr

theorem monoOr {unclosed : ReadFault} {tokens more : List Token}
    (faults : Faults (KnownOr unclosed tokens) read) (subset : tokens ⊆ more) :
    Faults (KnownOr unclosed more) read :=
  faults.imp fun _ => KnownOr.mono subset

/-- Two readings fail as the first does, or as the second does for some value. -/
theorem bind {next : Value → Except ReadFault Result} (faults : Faults kind read)
    (behind : ∀ value, Faults kind (next value)) : Faults kind (read >>= next) := by
  intro fault failed
  obtain failed | ⟨value, -, failed⟩ := bind_eq_error.mp failed
  · exact faults fault failed
  · exact behind value fault failed

theorem map (faults : Faults kind read) (use : Value → Result) : Faults kind (read.map use) :=
  fun fault failed => faults fault (map_eq_error.mp failed)

theorem ite {condition : Prop} [Decidable condition] {other : Except ReadFault Value}
    (whenTrue : Faults kind read) (whenFalse : Faults kind other) :
    Faults kind (if condition then read else other) := by
  by_cases holds : condition
  · rw [if_pos holds]
    exact whenTrue
  · rw [if_neg holds]
    exact whenFalse

end Faults

/-! ### Productions without tags -/

section

variable {whole : List Token}

/-- A token that is not the one wanted is unexpected. -/
theorem expect_faults (text : String) (tokens : List Token) :
    Faults (Known whole) (expect text tokens) :=
  Faults.ite (Faults.ok _) (Faults.error trivial)

theorem identifier_faults (tokens : List Token) : Faults (Known whole) (identifier tokens) := by
  cases tokens with
  | nil => exact Faults.error trivial
  | cons token rest => exact Faults.ite (Faults.ok _) (Faults.error trivial)

/-- Skipping fails before an opening bracket, or because it is not closed. -/
theorem skipBalanced_faults (tokens : List Token) : Faults (Known whole) (skipBalanced tokens) := by
  cases tokens with
  | nil => exact Faults.error trivial
  | cons opener rest =>
    refine Faults.ite ?_ (Faults.error trivial)
    split
    · exact Faults.ok _
    · exact Faults.error trivial

/-- A type holds no tag, so none of its branches can end with the fault of one. -/
theorem typeRef_faults (tokens : List Token) : Faults (Known whole) (typeRef tokens) := by
  have expected := @expect_faults whole
  have skipped := @skipBalanced_faults whole
  induction tokens using drop_induction with
  | nil =>
    rw [typeRef]
    exact Faults.error trivial
  | cons token rest behind =>
    have inner : Faults (Known whole) (typeRef rest) := behind 0
    rw [typeRef.eq_def]
    dsimp only
    -- One goal for each kind of first token, its branches in the order in which they are tried.
    split
    · refine Faults.ite (inner.bind fun _ => Faults.ok _) (Faults.ite ?_ (Faults.ite ?_
        (Faults.ite ?_ (Faults.error trivial))))
      · exact inner.bind fun _ => (expected _ _).bind fun _ => Faults.ok _
      · exact Faults.ite (Faults.error trivial) ((behind _).bind fun _ => Faults.ok _)
      · exact (expected _ _).bind fun _ => (behind _).bind fun _ => Faults.ok _
    · refine Faults.ite ?_ (Faults.ite ?_ (Faults.ite ?_ (Faults.ite ?_ (Faults.error trivial))))
      · exact (expected _ _).bind fun _ => (behind _).bind fun _ => (expected _ _).bind fun _ =>
          (behind _).bind fun _ => Faults.ok _
      · exact (behind _).bind fun _ => Faults.ok _
      · exact (skipped _).bind fun _ => Faults.ok _
      · refine (skipped _).bind fun _ => Faults.ite ?_ (Faults.ite ?_ (Faults.ok _))
        · exact (skipped _).bind fun _ => Faults.ok _
        · exact (behind _).bind fun _ => Faults.ok _
    · refine Faults.ite ?_ (Faults.ok _)
      exact (skipped _).bind fun _ => Faults.ok _
    · exact Faults.error trivial

theorem identifierList_faults (tokens : List Token) :
    Faults (Known whole) (identifierList tokens) := by
  fun_induction identifierList tokens with
  | case1 => exact Faults.error trivial
  | case2 => exact Faults.ok _
  | case3 _ _ _ _ _ inductionHypothesis => exact inductionHypothesis.bind fun _ => Faults.ok _
  | case4 => exact Faults.ok _
  | case5 => exact Faults.error trivial

theorem skipTypeParameters_faults (tokens : List Token) :
    Faults (Known whole) (skipTypeParameters tokens) :=
  Faults.ite ((skipBalanced_faults tokens).map _) (Faults.ok _)

theorem skipValueType_faults (tokens : List Token) : Faults (Known whole) (skipValueType tokens) :=
  Faults.ite (Faults.ok _) ((typeRef_faults tokens).map _)

theorem valueSpec_faults (tokens : List Token) : Faults (Known whole) (valueSpec tokens) :=
  (identifierList_faults tokens).bind fun _ => (skipValueType_faults _).bind fun _ =>
    Faults.ite (Faults.ok _) (Faults.ok _)

theorem skipIfNext_faults (bracket : String) (tokens : List Token) :
    Faults (Known whole) (skipIfNext bracket tokens) :=
  Faults.ite ((skipBalanced_faults tokens).map _) (Faults.ok _)

theorem receiver_faults (tokens : List Token) : Faults (Known whole) (receiver tokens) :=
  Faults.ite ((skipBalanced_faults tokens).bind fun _ => Faults.ok _) (Faults.ok _)

theorem skipParameters_faults (tokens : List Token) :
    Faults (Known whole) (skipParameters tokens) :=
  Faults.ite ((skipBalanced_faults tokens).map _) (Faults.error trivial)

theorem skipResults_faults (tokens : List Token) : Faults (Known whole) (skipResults tokens) :=
  Faults.ite ((skipBalanced_faults tokens).map _)
    (Faults.ite ((typeRef_faults tokens).map _) (Faults.ok _))

/-- Neither do functions: what stands in their parentheses and bodies is skipped. -/
theorem functionDeclaration_faults (docs : Docs) (keyword : Token) (tokens : List Token) :
    Faults (Known whole) (functionDeclaration docs keyword tokens) :=
  (receiver_faults tokens).bind fun _ => (identifier_faults _).bind fun _ =>
    (skipIfNext_faults _ _).bind fun _ => (skipParameters_faults _).bind fun _ =>
      (skipResults_faults _).bind fun _ => (skipIfNext_faults _ _).bind fun _ => Faults.ok _

end

/-! ### Lists of items -/

/-- A list of items ends with a fault of an item, with another token behind an item, or with the
fault of a list that is not closed. -/
theorem itemsUntil_faults {Item : Type} {closer : String} {unclosed : ReadFault}
    {item : List Token → Except ReadFault (List Item × Nat)} {whole : List Token}
    (each : ∀ tokens, tokens <:+ whole → Faults (Known whole) (item tokens)) (tokens : List Token)
    (suffix : tokens <:+ whole) :
    Faults (KnownOr unclosed whole) (itemsUntil closer unclosed item tokens) := by
  induction tokens using drop_induction with
  | nil =>
    rw [itemsUntil]
    exact Faults.error (Or.inl rfl)
  | cons token rest inductionHypothesis =>
    have behind : ∀ used, Faults (KnownOr unclosed whole)
        (itemsUntil closer unclosed item (rest.drop used)) := fun used =>
      inductionHypothesis used
        ((List.drop_suffix used rest).trans ((List.suffix_cons token rest).trans suffix))
    rw [itemsUntil]
    refine Faults.ite (Faults.ok _) (Faults.ite ?_ ?_)
    · exact (behind 0).bind fun _ => Faults.ok _
    · refine (each _ suffix).orUnclosed.bind fun _ => ?_
      refine Faults.ite ?_ ((behind _).bind fun _ => Faults.ok _)
      exact (expect_faults _ _).orUnclosed.bind fun _ => (behind _).bind fun _ => Faults.ok _

/-- The tokens end before the list does: semicolons and items that are followed by a semicolon are
read up to the end of the tokens, and nothing closes the list. -/
inductive EndsInList {Item : Type} (closer : String)
    (item : List Token → Except ReadFault (List Item × Nat)) : List Token → Prop
  | ended : EndsInList closer item []
  | separator {token : Token} {rest : List Token} (unclosing : token.is closer = false)
      (separates : token.is ";") (goesOn : EndsInList closer item rest) :
      EndsInList closer item (token :: rest)
  | item {token : Token} {rest : List Token} {found : List Item} {used : Nat}
      (unclosing : token.is closer = false) (starts : token.is ";" = false)
      (read : item (token :: rest) = .ok (found, used))
      (separated : nextIs ";" (rest.drop (used - 1)))
      (goesOn : EndsInList closer item (rest.drop (used - 1))) :
      EndsInList closer item (token :: rest)

/-- What closes the list does not come next. -/
theorem EndsInList.nextIs_eq_false {Item : Type} {closer : String}
    {item : List Token → Except ReadFault (List Item × Nat)} {tokens : List Token}
    (ends : EndsInList closer item tokens) : nextIs closer tokens = false := by
  cases ends with
  | ended => rfl
  | separator unclosing => exact unclosing
  | item unclosing => exact unclosing

/-- The fault comes from what follows: a missing separator gives another one. -/
theorem separated_eq_openTypeGroup {Value : Type} {last : Bool} {text : String}
    {tokens : List Token} {next : Except ReadFault Value} :
    (if (!last) = true then do expect text tokens; next else next) = .error .openTypeGroup ↔
      (last ∨ nextIs text tokens) ∧ next = .error .openTypeGroup := by
  have expected : expect text tokens ≠ .error .openTypeGroup :=
    @expect_faults [] text tokens _
  cases last with
  | true => simp
  | false => simp [bind_eq_error, expect_eq_ok, expected]

/-- The fault of a list that is not closed arises in no other way, if no item ends with it. -/
theorem itemsUntil_eq_openTypeGroup {Item : Type} {closer : String}
    {item : List Token → Except ReadFault (List Item × Nat)}
    (other : ∀ tokens, item tokens ≠ .error .openTypeGroup) (tokens : List Token) :
    itemsUntil closer .openTypeGroup item tokens = .error .openTypeGroup ↔
      EndsInList closer item tokens := by
  constructor
  · intro failed
    induction tokens using drop_induction with
    | nil => exact .ended
    | cons token rest behind =>
      rw [itemsUntil] at failed
      split at failed
      · simp at failed
      next unclosing =>
      split at failed
      · next separates =>
        obtain failed | ⟨_, -, failed⟩ := bind_eq_error.mp failed
        · exact .separator (eq_false_of_ne_true unclosing) separates (behind 0 failed)
        · exact absurd failed pure_ne_error
      · next starts =>
        obtain failed | ⟨⟨found, used⟩, read, failed⟩ := bind_eq_error.mp failed
        · exact absurd failed (other _)
        obtain ⟨separated, failed⟩ := separated_eq_openTypeGroup.mp failed
        obtain failed | ⟨_, -, failed⟩ := bind_eq_error.mp failed
        · have goesOn := behind _ failed
          -- A closing token would end the list, so only a semicolon can stand behind the item.
          have semicolon := separated.resolve_left (ne_true_of_eq_false goesOn.nextIs_eq_false)
          exact .item (eq_false_of_ne_true unclosing) (eq_false_of_ne_true starts) read semicolon
            goesOn
        · exact absurd failed pure_ne_error
  · intro ends
    induction ends with
    | ended => rw [itemsUntil]
    | separator unclosing separates _ inductionHypothesis =>
      rw [itemsUntil, if_neg (ne_true_of_eq_false unclosing), if_pos separates, inductionHypothesis]
      rfl
    | item unclosing starts read separated _ inductionHypothesis =>
      rw [itemsUntil, if_neg (ne_true_of_eq_false unclosing),
        if_neg (ne_true_of_eq_false starts), read]
      refine separated_eq_openTypeGroup.mpr ⟨Or.inr separated, ?_⟩
      rw [inductionHypothesis]
      rfl

/-! ### Struct tags -/

/-- A tag is the next token, and its literal is read at once. -/
theorem fieldTag_faults (tokens : List Token) : Faults (Known tokens) (fieldTag tokens) := by
  cases tokens with
  | nil => exact Faults.ok _
  | cons token rest =>
    rw [fieldTag]
    by_cases string : token.kind = .string
    · rw [if_pos string]
      split
      · exact Faults.ok _
      · next fault failed => exact Faults.error ⟨List.mem_cons_self, string, failed⟩
    · rw [if_neg string]
      exact Faults.ok _

/-- A field line fails for its names, its type or its tag. -/
theorem fieldDeclaration_faults (tokens : List Token) :
    Faults (Known tokens) (fieldDeclaration tokens) := by
  have tag : ∀ used, Faults (Known tokens) (fieldTag (tokens.drop used)) :=
    fun used => (fieldTag_faults _).mono (List.drop_subset used tokens)
  refine Faults.ite ?_ ?_
  · exact (typeRef_faults _).bind fun _ => (tag _).bind fun _ => Faults.ok _
  · exact (identifierList_faults _).bind fun _ => (typeRef_faults _).bind fun _ =>
      (tag _).bind fun _ => Faults.ok _

theorem structFields_faults (tokens : List Token) :
    Faults (Known tokens) (structFields tokens) := by
  have lines : Faults (Known tokens) (fieldLines (tokens.drop 1)) := by
    have each : ∀ part, part <:+ tokens → Faults (Known tokens) (fieldDeclaration part) :=
      fun part suffix => (fieldDeclaration_faults part).mono suffix.subset
    refine (itemsUntil_faults each _ (List.drop_suffix 1 tokens)).imp ?_
    rintro fault (rfl | known)
    · trivial
    · exact known
  exact (expect_faults _ _).bind fun _ => lines.bind fun _ => Faults.ok _

theorem typeBody_faults (tokens : List Token) : Faults (Known tokens) (typeBody tokens) := by
  refine Faults.ite ?_ ?_
  · exact ((structFields_faults _).mono (List.drop_subset 1 tokens)).bind fun _ => Faults.ok _
  · exact (typeRef_faults _).bind fun _ => Faults.ok _

theorem typeSpec_faults (doc groupDoc : String) (tokens : List Token) :
    Faults (Known tokens) (typeSpec doc groupDoc tokens) := by
  refine (identifier_faults _).bind fun _ => (skipTypeParameters_faults _).bind fun _ => ?_
  exact ((typeBody_faults _).mono (List.drop_subset _ tokens)).bind fun _ => Faults.ok _

/-! ### Groups of types -/

theorem Known.ne_openTypeGroup {tokens : List Token} {fault : ReadFault}
    (known : Known tokens fault) : fault ≠ .openTypeGroup := by
  rintro rfl
  exact known

theorem single_faults {Value : Type} {kind : ReadFault → Prop}
    {read : Except ReadFault (Value × Nat)} (faults : Faults kind read) :
    Faults kind (single read) :=
  faults.map _

/-- One line of a group of types. -/
def groupedSpec (docs : Docs) (groupDoc : String) (tokens : List Token) :
    Except ReadFault (List TypeDeclaration × Nat) :=
  single (typeSpec (docs.aboveNext tokens) groupDoc tokens)

theorem groupedSpec_faults (docs : Docs) (groupDoc : String) (tokens : List Token) :
    Faults (Known tokens) (groupedSpec docs groupDoc tokens) :=
  single_faults (typeSpec_faults _ groupDoc tokens)

/-- The tokens behind the keyword of a type declaration end inside its parentheses. -/
def EndsInGroup (docs : Docs) (keyword : Token) (tokens : List Token) : Prop :=
  nextIs "(" tokens ∧
    EndsInList ")" (groupedSpec docs (docs.above keyword.line)) (tokens.drop 1)

theorem typeDeclaration_faults (docs : Docs) (keyword : Token) (tokens : List Token) :
    Faults (KnownOr .openTypeGroup tokens) (typeDeclaration docs keyword tokens) := by
  refine Faults.ite ?_ ?_
  · have each : ∀ part, part <:+ tokens →
        Faults (Known tokens) (groupedSpec docs (docs.above keyword.line) part) :=
      fun part suffix => (groupedSpec_faults docs _ part).mono suffix.subset
    exact (itemsUntil_faults each _ (List.drop_suffix 1 tokens)).bind fun _ => Faults.ok _
  · exact (single_faults (typeSpec_faults _ _ tokens)).orUnclosed

theorem typeDeclaration_eq_openTypeGroup (docs : Docs) (keyword : Token) (tokens : List Token) :
    typeDeclaration docs keyword tokens = .error .openTypeGroup ↔
      EndsInGroup docs keyword tokens := by
  have spec : ∀ part, groupedSpec docs (docs.above keyword.line) part ≠ .error .openTypeGroup :=
    fun part failed => (groupedSpec_faults docs _ part _ failed).ne_openTypeGroup rfl
  have group := @itemsUntil_eq_openTypeGroup _ ")" _ spec (tokens.drop 1)
  have alone : single (typeSpec (docs.above keyword.line) "" tokens) ≠ .error .openTypeGroup :=
    fun failed => (single_faults (typeSpec_faults _ _ tokens) _ failed).ne_openTypeGroup rfl
  rw [EndsInGroup, ← group, typeDeclaration]
  cases opens : nextIs "(" tokens with
  | true =>
    rw [if_pos rfl, bind_eq_error]
    constructor
    · rintro (failed | ⟨_, -, failed⟩)
      · exact ⟨rfl, failed⟩
      · exact absurd failed pure_ne_error
    · exact fun failed => Or.inl failed.2
  | false =>
    rw [if_neg Bool.false_ne_true]
    exact ⟨fun failed => absurd failed alone, fun failed => absurd failed.1 Bool.false_ne_true⟩

/-! ### Declarations -/

/-- Values hold no tag, and their parentheses have a fault that is reported. -/
theorem valueDeclaration_faults (docs : Docs) (keyword : ValueKeyword) (line : Nat)
    (tokens : List Token) : Faults (Known tokens) (valueDeclaration docs keyword line tokens) := by
  have each : ∀ part, part <:+ tokens → Faults (Known tokens) (single (valueSpec part)) :=
    fun part _ => single_faults (valueSpec_faults part)
  have group : Faults (Known tokens) (valueGroup keyword (tokens.drop 1)) := by
    refine (itemsUntil_faults each _ (List.drop_suffix 1 tokens)).imp ?_
    rintro fault (rfl | known)
    · trivial
    · exact known
  have specs : Faults (Known tokens) (valueSpecs keyword tokens) :=
    Faults.ite (group.bind fun _ => Faults.ok _) (single_faults (valueSpec_faults tokens))
  exact specs.bind fun _ => Faults.ok _

/-- What the keyword of types leads to. -/
theorem topLevel_type {keyword : Token} (kind : keyword.kind = .keyword)
    (text : keyword.text = "type") (docs : Docs) (rest : List Token) :
    topLevel docs keyword rest =
      (typeDeclaration docs keyword rest).map fun (found, used) =>
        (found.map Declaration.type, used + 1) := by
  rw [topLevel, if_neg (by simp [kind]), text, if_neg (by decide), if_neg (by decide), if_pos rfl]
  cases typeDeclaration docs keyword rest <;> rfl

/-- No declaration but that of a type ends with another fault than those of its tokens. -/
theorem topLevel_known {keyword : Token} (other : keyword.kind = .keyword → keyword.text ≠ "type")
    (docs : Docs) (rest : List Token) : Faults (Known rest) (topLevel docs keyword rest) := by
  unfold topLevel
  by_cases kind : keyword.kind = .keyword
  · rw [if_neg (fun differs => differs kind), if_neg (other kind)]
    refine Faults.ite ?_ (Faults.ite (Faults.ite ?_ (Faults.ok _))
      (Faults.ite ?_ (Faults.ite ?_ (Faults.ite ?_ (Faults.error trivial)))))
    · exact (identifier_faults rest).bind fun _ => Faults.ok _
    · exact (skipBalanced_faults rest).bind fun _ => Faults.ok _
    · exact (valueDeclaration_faults docs _ _ rest).bind fun _ => Faults.ok _
    · exact (valueDeclaration_faults docs _ _ rest).bind fun _ => Faults.ok _
    · exact (functionDeclaration_faults docs keyword rest).bind fun _ => Faults.ok _
  · rw [if_pos kind]
    exact Faults.error trivial

theorem topLevel_faults (docs : Docs) (keyword : Token) (rest : List Token) :
    Faults (KnownOr .openTypeGroup rest) (topLevel docs keyword rest) := by
  by_cases type : keyword.kind = .keyword ∧ keyword.text = "type"
  · rw [topLevel_type type.1 type.2]
    exact (typeDeclaration_faults docs keyword rest).map _
  · exact (topLevel_known (not_and.mp type) docs rest).orUnclosed

/-- The keyword of a type declaration, with tokens behind it that end inside its parentheses. -/
def StartsOpenGroup (docs : Docs) (keyword : Token) (rest : List Token) : Prop :=
  keyword.kind = .keyword ∧ keyword.text = "type" ∧ EndsInGroup docs keyword rest

/-- A declaration ends with the fault only if it is the group that is not closed. -/
theorem topLevel_eq_openTypeGroup (docs : Docs) (keyword : Token) (rest : List Token) :
    topLevel docs keyword rest = .error .openTypeGroup ↔ StartsOpenGroup docs keyword rest := by
  by_cases type : keyword.kind = .keyword ∧ keyword.text = "type"
  · rw [topLevel_type type.1 type.2, map_eq_error, typeDeclaration_eq_openTypeGroup]
    simp only [StartsOpenGroup, type, true_and]
  · constructor
    · exact fun failed => absurd rfl
        ((topLevel_known (not_and.mp type) docs rest _ failed).ne_openTypeGroup)
    · exact fun starts => absurd ⟨starts.1, starts.2.1⟩ type

/-- The tokens end inside a parenthesised group of types: semicolons and declarations are read one
after the other up to the keyword of a group that is not closed. -/
inductive EndsInTypeGroup (docs : Docs) : List Token → Prop
  | group {keyword : Token} {rest : List Token} (starts : StartsOpenGroup docs keyword rest) :
      EndsInTypeGroup docs (keyword :: rest)
  | separator {token : Token} {rest : List Token} (separates : token.kind = .semicolon)
      (goesOn : EndsInTypeGroup docs rest) : EndsInTypeGroup docs (token :: rest)
  | declaration {token : Token} {rest : List Token} {found : List Declaration} {used : Nat}
      (starts : token.kind ≠ .semicolon) (read : topLevel docs token rest = .ok (found, used))
      (separated : nextIs ";" (rest.drop (used - 1)))
      (goesOn : EndsInTypeGroup docs (rest.drop (used - 1))) : EndsInTypeGroup docs (token :: rest)

/-- The declarations of a source fail as one of them does, or for a token between two. -/
theorem declarations_faults (docs : Docs) (tokens : List Token) :
    Faults (KnownOr .openTypeGroup tokens) (declarations docs tokens) := by
  induction tokens using drop_induction with
  | nil =>
    rw [declarations]
    exact Faults.ok _
  | cons token rest inductionHypothesis =>
    have later : rest ⊆ token :: rest := List.subset_cons_self token rest
    have behind : ∀ used, Faults (KnownOr .openTypeGroup (token :: rest))
        (declarations docs (rest.drop used)) := fun used =>
      (inductionHypothesis used).monoOr (List.Subset.trans (List.drop_subset used rest) later)
    have head := (topLevel_faults docs token rest).monoOr later
    rw [declarations]
    refine Faults.ite (behind 0) (head.bind fun _ => Faults.ite ?_ ?_)
    · exact (expect_faults _ _).orUnclosed.bind fun _ => (behind _).bind fun _ => Faults.ok _
    · exact (behind _).bind fun _ => Faults.ok _

/-- The fault without a message arises exactly where the tokens end inside a group of types. -/
theorem declarations_eq_openTypeGroup (docs : Docs) (tokens : List Token) :
    declarations docs tokens = .error .openTypeGroup ↔ EndsInTypeGroup docs tokens := by
  constructor
  · intro failed
    induction tokens using drop_induction with
    | nil =>
      rw [declarations] at failed
      simp at failed
    | cons token rest behind =>
      rw [declarations] at failed
      split at failed
      · next separates => exact .separator separates (behind 0 failed)
      next starts =>
      obtain failed | ⟨⟨found, used⟩, read, failed⟩ := bind_eq_error.mp failed
      · exact .group ((topLevel_eq_openTypeGroup docs token rest).mp failed)
      obtain ⟨separated, failed⟩ := separated_eq_openTypeGroup.mp failed
      obtain failed | ⟨_, -, failed⟩ := bind_eq_error.mp failed
      · have goesOn := behind _ failed
        have semicolon := separated.resolve_left fun empty => by
          rw [List.isEmpty_iff.mp empty] at goesOn
          cases goesOn
        exact .declaration starts read semicolon goesOn
      · exact absurd failed pure_ne_error
  · intro ends
    induction ends with
    | @group keyword rest starts =>
      have failed := (topLevel_eq_openTypeGroup docs keyword rest).mpr starts
      rw [declarations, if_neg (by simp [starts.1]), failed]
      rfl
    | separator separates _ inductionHypothesis =>
      rw [declarations, if_pos separates, inductionHypothesis]
    | declaration starts read separated _ inductionHypothesis =>
      rw [declarations, if_neg starts, read]
      refine separated_eq_openTypeGroup.mpr ⟨Or.inr separated, ?_⟩
      rw [inductionHypothesis]
      rfl

/-! ### The keyword of a group -/

/-- Whether the keyword of types stands directly before an opening parenthesis. -/
def opensTypeGroup : List Token → Bool
  | first :: second :: rest =>
    (first.kind == .keyword && first.text == "type" && second.is "(") ||
      opensTypeGroup (second :: rest)
  | _ => false

theorem opensTypeGroup_cons (token : Token) {rest : List Token} (opens : opensTypeGroup rest) :
    opensTypeGroup (token :: rest) := by
  cases rest with
  | nil => exact opens
  | cons next rest => rw [opensTypeGroup, opens, Bool.or_true]

/-- A group that opens further on opens in the whole. -/
theorem opensTypeGroup_of_suffix {tokens whole : List Token} (suffix : tokens <:+ whole)
    (opens : opensTypeGroup tokens) : opensTypeGroup whole := by
  obtain ⟨front, rfl⟩ := suffix
  induction front with
  | nil => exact opens
  | cons token front inductionHypothesis => exact opensTypeGroup_cons token inductionHypothesis

/-- Tokens that end inside a group hold the keyword and the parenthesis of it. -/
theorem opensTypeGroup_of_ends {docs : Docs} {tokens : List Token}
    (ends : EndsInTypeGroup docs tokens) : opensTypeGroup tokens := by
  induction ends with
  | group starts =>
    obtain ⟨kind, text, opens, -⟩ := starts
    obtain ⟨bracket, rest, rfl, isBracket⟩ := nextIs_eq_true.mp opens
    simp [opensTypeGroup, kind, text, isBracket]
  | separator _ _ inductionHypothesis => exact opensTypeGroup_cons _ inductionHypothesis
  | declaration _ _ _ _ inductionHypothesis =>
    have opens := opensTypeGroup_of_suffix (List.drop_suffix _ _) inductionHypothesis
    exact opensTypeGroup_cons _ opens

/-! ### Faults of a source -/

/-- The tokens of a source; none if it cannot be cut into lexemes. -/
def tokensIn (source : String) : List Token :=
  match layoutOf source with
  | .error _ => []
  | .ok layout => layout.tokens

/-- The fault has a message with the path in front. -/
def ReportedAt (path : String) (fault : SourceFault) : Prop :=
  fault.message? path = some (failedToInterpret path fault.line fault.fault.message)

/-- The fault has no message: the tokens end inside a parenthesised group of types. -/
structure OpenGroupIn (source path : String) (fault : SourceFault) : Prop where
  message : fault.message? path = none
  fault : fault.fault = .openTypeGroup
  ends : ∃ layout, layoutOf source = .ok layout ∧
    EndsInTypeGroup (docsOf layout.comments) layout.tokens

/-- The fault has no message: it is that of a string with an escape of eight digits whose number has
more than 31 bits. -/
structure LargeEscapeIn (source path : String) (fault : SourceFault) : Prop where
  message : fault.message? path = none
  escape : ∃ literal ∈ tokensIn source, literal.kind = .string ∧
    fault.fault = .badTag .escapeTooLarge literal ∧
    ∃ point, ('U', point) ∈ literal.escapes ∧ 0x80000000 ≤ point

theorem tokensIn_of_layoutOf {source : String} {layout : Layout}
    (laid : layoutOf source = .ok layout) : tokensIn source = layout.tokens := by
  rw [tokensIn, laid]

/-- A fault of a source is one of its lexemes or one of its declarations. -/
theorem readSource_eq_error {source : String} {fault : SourceFault}
    (failed : readSource source = .error fault) :
    (∃ lexical line, fault.fault = .lexical lexical line) ∨
      ∃ layout, layoutOf source = .ok layout ∧
        declarations (docsOf layout.comments) layout.tokens = .error fault.fault := by
  obtain failed | ⟨layout, laid, failed⟩ := bind_eq_error.mp failed
  · unfold layoutOf at failed
    split at failed
    · next lexical line _ =>
      obtain rfl := Except.error.inj failed
      exact Or.inl ⟨lexical, line, rfl⟩
    · simp at failed
  · unfold Layout.declarations at failed
    split at failed
    · next inner failedInner =>
      obtain rfl := Except.error.inj failed
      exact Or.inr ⟨layout, laid, failedInner⟩
    · simp at failed

/-- Every fault of a source is reported or has one of two causes. -/
theorem fault_of_readSource {source : String} (path : String) {fault : SourceFault}
    (failed : readSource source = .error fault) :
    ReportedAt path fault ∨ OpenGroupIn source path fault ∨ LargeEscapeIn source path fault := by
  obtain ⟨fault, line⟩ := fault
  obtain ⟨lexical, line, same⟩ | ⟨layout, laid, failed⟩ := readSource_eq_error failed
  · dsimp only at same
    subst same
    exact Or.inl rfl
  · dsimp only at failed
    have tokens := tokensIn_of_layoutOf laid
    obtain rfl | known := declarations_faults _ _ _ failed
    · exact Or.inr (Or.inl ⟨rfl, rfl, layout, laid,
        (declarations_eq_openTypeGroup _ _).mp failed⟩)
    cases fault with
    | lexical => exact known.elim
    | openTypeGroup => exact known.elim
    | unexpected wanted found => exact Or.inl rfl
    | unbalanced opener => exact Or.inl rfl
    | badTag fault literal =>
      obtain ⟨member, string, failed⟩ := known
      cases fault with
      | escapeTooLarge =>
        obtain ⟨⟨letter, point⟩, isEscape, large⟩ :=
          escapes_of_unquote (spelled_of_layoutOf laid literal member) failed
        have beyond := pointOf_eq_escapeTooLarge large
        obtain rfl : letter = 'U' := letter_of_large_escape isEscape beyond
        exact Or.inr (Or.inr ⟨rfl, literal, tokens ▸ member, string, rfl, point, isEscape, beyond⟩)
      | _ => exact Or.inl rfl

/-- Reading a source ends with declarations, with a fault that is reported with its path, or with
one of two faults without a message, each with its cause in the source. A source that has neither
the start of a parenthesised group of types nor an escape too large to be a code point ends with
declarations or a reported fault. -/
theorem readSource_outcome (source path : String) :
    ((∃ found, readSource source = .ok found) ∨ ∃ fault, readSource source = .error fault ∧
        (ReportedAt path fault ∨ OpenGroupIn source path fault ∨
          LargeEscapeIn source path fault)) ∧
      (opensTypeGroup (tokensIn source) = false →
        (∀ token ∈ tokensIn source, token.kind = .string → ∀ escape ∈ token.escapes,
          escape.2 < 0x80000000) →
        ∀ fault, readSource source = .error fault → ReportedAt path fault) := by
  constructor
  · cases read : readSource source with
    | ok found => exact Or.inl ⟨found, rfl⟩
    | error fault => exact Or.inr ⟨fault, rfl, fault_of_readSource path read⟩
  · intro ungrouped small fault failed
    obtain reported | openGroup | large := fault_of_readSource path failed
    · exact reported
    · obtain ⟨layout, laid, ends⟩ := openGroup.ends
      have opens := opensTypeGroup_of_ends ends
      rw [← tokensIn_of_layoutOf laid, ungrouped] at opens
      exact absurd opens Bool.false_ne_true
    · obtain ⟨literal, member, string, -, point, isEscape, beyond⟩ := large.escape
      exact absurd (small literal member string _ isEscape) (Nat.not_lt_of_le beyond)

/-- A struct without its closing brace, with an escape in a tag, is a reported fault. -/
theorem readSource_outcome_open_struct :
    let source := "package p\n\ntype T struct \x7b\n\tA int \"\\u0041\"\n"
    opensTypeGroup (tokensIn source) = false ∧
      (∀ token ∈ tokensIn source, token.kind = .string → ∀ escape ∈ token.escapes,
        escape.2 < 0x80000000) ∧
      ∃ fault, readSource source = .error fault ∧ ReportedAt "t.go" fault := by
  intro source
  have ungrouped : opensTypeGroup (tokensIn source) = false := by decide +kernel
  have small : ∀ token ∈ tokensIn source, token.kind = .string → ∀ escape ∈ token.escapes,
      escape.2 < 0x80000000 := by decide +kernel
  have none : (readSource source).toOption = none := by decide +kernel
  refine ⟨ungrouped, small, ?_⟩
  cases read : readSource source with
  | ok found =>
    rw [read] at none
    simp [Except.toOption] at none
  | error fault =>
    exact ⟨fault, rfl, (readSource_outcome source "t.go").2 ungrouped small fault read⟩

end GoApiDoc.Go
