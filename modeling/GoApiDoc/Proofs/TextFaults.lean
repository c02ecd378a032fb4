/-
This file says why a YAML text cannot be cut into tokens. Nearly always it is not well-formed. There
are two other reasons, and each is a place in the text: an escape in double quotes that denotes no
character, and a number of a version line that has too many digits.

A fault may be met far behind the place at which a function starts, so the statements speak of the
text from that place on; the place only ever moves on, and what is found in a rest of the text is
found in the text.
-/

import GoApiDoc.Yaml.Tokens
import GoApiDoc.Proofs.Reading

namespace GoApiDoc.Yaml

open Text

/-! ### Outcomes -/

/-- A value has the property, and a fault other than a malformed text has a cause. -/
def Yields {Value : Type} (result : Value → Prop) (cause : Fault → Prop) :
    Except Fault Value → Prop
  | .ok value => result value
  | .error fault => fault = .malformed ∨ cause fault

/-- Every fault other than a malformed text has a cause. -/
def Fails {Value : Type} (cause : Fault → Prop) (read : Except Fault Value) : Prop :=
  Yields (fun _ => True) cause read

section

variable {Value Result : Type} {result : Value → Prop} {cause : Fault → Prop}

/-- A malformed text needs no cause. -/
theorem Yields.malformed : Yields result cause (.error .malformed) :=
  Or.inl rfl

theorem Yields.malformed_bind {next : Result → Except Fault Value} :
    Yields result cause (throw Fault.malformed >>= next) :=
  Or.inl rfl

theorem Yields.imp {read : Except Fault Value} {others : Value → Prop} {causes : Fault → Prop}
    (yields : Yields result cause read) (holds : ∀ value, result value → others value)
    (causing : ∀ fault, cause fault → causes fault) : Yields others causes read := by
  cases read with
  | ok value => exact holds value yields
  | error fault => exact yields.imp_right (causing fault)

/-- A step, and then one for every value that it gives. -/
theorem Yields.bind {read : Except Fault Value} {next : Value → Except Fault Result}
    {after : Result → Prop} (yields : Yields result cause read)
    (others : ∀ value, result value → Yields after cause (next value)) :
    Yields after cause (read >>= next) := by
  cases read with
  | ok value => exact others value yields
  | error fault => exact yields

/-- The same where nothing is known of the value. -/
theorem Fails.bind {read : Except Fault Value} {next : Value → Except Fault Result}
    {after : Result → Prop} (fails : Fails cause read)
    (others : ∀ value, Yields after cause (next value)) : Yields after cause (read >>= next) :=
  Yields.bind fails fun value _ => others value

/-- What every step of a loop preserves holds after the loop. -/
theorem Yields.foldlM {Item : Type} {step : Value → Item → Except Fault Value} {start : Value}
    (items : List Item) (holds : result start)
    (each : ∀ value, ∀ item ∈ items, result value → Yields result cause (step value item)) :
    Yields result cause (items.foldlM step start) := by
  induction items generalizing start with
  | nil => exact holds
  | cons item rest inductionHypothesis =>
    rw [List.foldlM_cons]
    refine (each start item List.mem_cons_self holds).bind fun value kept => ?_
    exact inductionHypothesis kept fun value item member =>
      each value item (List.mem_cons_of_mem _ member)

theorem Fails.map {read : Except Fault Value} (fails : Fails cause read) (use : Value → Result) :
    Fails cause (read.map use) := by
  cases read with
  | ok value => trivial
  | error fault => exact fails

theorem Yields.ite {condition : Prop} [Decidable condition] {first second : Except Fault Value}
    (whenTrue : condition → Yields result cause first)
    (whenFalse : ¬condition → Yields result cause second) :
    Yields result cause (if condition then first else second) := by
  by_cases holds : condition
  · rw [if_pos holds]
    exact whenTrue holds
  · rw [if_neg holds]
    exact whenFalse holds

end

/-! ### Names, tags and block scalars -/

section

variable {cause : Fault → Prop}

theorem anchorName_fails (text : List Char) : Fails cause (anchorName text) :=
  Yields.ite (fun _ => Yields.malformed) fun _ => trivial

theorem uriBytes_fails (text : List Char) : Fails cause (uriBytes text) := by
  fun_induction uriBytes text with
  | case1 first second rest high low _ _ inductionHypothesis =>
    exact inductionHypothesis.bind fun _ => trivial
  | case2 => exact Yields.malformed
  | case3 => exact Yields.malformed
  | case4 => trivial

theorem tagText_fails (text : List Char) : Fails cause (tagText text) := by
  fun_induction tagText text with
  | case1 => trivial
  | case2 char rest percent inductionHypothesis =>
    refine (uriBytes_fails _).bind ?_
    rintro ⟨bytes, length⟩
    dsimp only
    split
    · exact Yields.malformed
    · exact (inductionHypothesis length).bind fun _ => trivial
  | case3 char rest other uri inductionHypothesis =>
    exact inductionHypothesis.bind fun _ => trivial
  | case4 => trivial

theorem tagUri_fails (text : List Char) : Fails cause (tagUri text) :=
  (tagText_fails text).bind fun _ => Yields.ite (fun _ => Yields.malformed) fun _ => trivial

theorem tagHandle_fails (text : List Char) : Fails cause (tagHandle text) :=
  Yields.ite (fun _ => Yields.malformed) fun _ => Yields.ite (fun _ => trivial) fun _ =>
    Yields.ite (fun _ => Yields.malformed) fun _ => trivial

/-- A tag is malformed or a token. -/
theorem tagToken_fails (text : List Char) : Fails cause (tagToken text) := by
  have finish : ∀ found : Token × Nat, Fails cause
      (if isSpaceOrEnd (peekAt found.2 text) then pure (found.1, found.2)
        else throw Fault.malformed) :=
    fun found => Yields.ite (fun _ => trivial) fun _ => Yields.malformed
  have suffixed : ∀ handle : String × Nat, Fails cause (tagUri (text.drop handle.2) >>= fun found =>
      if isSpaceOrEnd (peekAt (handle.2 + found.2) text) then
        pure (Token.tag (some handle.1) found.1, handle.2 + found.2)
      else throw Fault.malformed) :=
    fun handle => (tagUri_fails _).bind fun found => finish (Token.tag (some handle.1) found.1, _)
  unfold tagToken
  dsimp only
  split
  · refine (tagUri_fails _).bind fun found => ?_
    split
    · exact Yields.malformed
    · exact finish (_, _)
  · split
    · exact finish (_, _)
    · split
      · exact (tagHandle_fails text).bind fun handle => suffixed handle
      · exact suffixed ("!", 1)

theorem ignoredLine_fails (text : List Char) : Fails cause (ignoredLine text) :=
  Yields.ite (fun _ => trivial) fun _ => Yields.malformed

/-- The indicators of a block scalar are malformed or are read. -/
theorem blockIndicators_fails (text : List Char) : Fails cause (blockIndicators text) := by
  have finish : ∀ found : Chomping × Option Nat × Nat, Fails cause
      (if isSpaceOrEnd (peekAt found.2.2 text) then pure found else throw Fault.malformed) :=
    fun found => Yields.ite (fun _ => trivial) fun _ => Yields.malformed
  have increment : ∀ char : Char, Fails cause
      (if isAsciiDigit char then
        if char == '0' then Except.error Fault.malformed else .ok (hexValue char)
      else .ok none) :=
    fun char => Yields.ite
      (fun _ => Yields.ite (fun _ => Yields.malformed) fun _ => trivial) fun _ => trivial
  unfold blockIndicators
  dsimp only
  split
  · refine (increment _).bind fun width => ?_
    cases width with
    | some width => exact finish (_, some width, 2)
    | none => exact finish (_, none, 1)
  · refine (increment _).bind fun width => ?_
    cases width with
    | some width =>
      dsimp only
      split
      · exact finish (_, some width, 2)
      · exact finish (.clip, some width, 1)
    | none => exact finish (.clip, none, 0)

/-- A block scalar has no escapes, so it is malformed or a text. -/
theorem blockScalar_fails (folded : Bool) (parent : Int) (text : List Char) :
    Fails cause (blockScalar folded parent text) :=
  (blockIndicators_fails text).bind fun _ => (ignoredLine_fails _).bind fun _ =>
    Yields.ite (fun _ => trivial) fun _ => trivial

theorem quotedBreaks_fails (text : List Char) : Fails cause (quotedBreaks text) := by
  fun_induction quotedBreaks text with
  | case1 => exact Yields.malformed
  | case2 => trivial
  | case3 text mark blanks char rest found isBreak kept length _ inductionHypothesis =>
    exact inductionHypothesis.bind fun _ => trivial
  | case4 => trivial

/-- Blanks and line breaks between quotes are malformed or are folded. -/
theorem quotedBlanks_fails (text : List Char) : Fails cause (quotedBlanks text) := by
  unfold quotedBlanks
  dsimp only
  split
  · exact Yields.malformed
  · exact Yields.ite (fun _ => (quotedBreaks_fails _).bind fun _ => trivial) fun _ => trivial

end

/-! ### Escapes without a character -/

/-- The text holds an escape whose number is that of no code point. -/
inductive HasEscape (text : List Char) : Fault → Prop
  | mk {before digits after : List Char} {letter : Char} {fault : Fault}
      (place : text = before ++ '\\' :: letter :: (digits ++ after))
      (width : escapeWidth letter = some digits.length) (numeral : digits.all isHexDigit)
      (none : escapedPoint (hexNumber digits) = .error fault) : HasEscape text fault

/-- An escape in the rest of a text is one in the text. -/
theorem HasEscape.suffix {text rest : List Char} {fault : Fault} (has : HasEscape rest fault)
    (inside : rest <:+ text) : HasEscape text fault := by
  obtain ⟨front, rfl⟩ := inside
  cases has with
  | @mk before digits after letter _ place width numeral none =>
    subst place
    exact .mk (List.append_assoc ..).symm width numeral none

/-- An escape is malformed, or its number has no code point. -/
theorem quotedEscape_fails (text : List Char) :
    Fails (HasEscape ('\\' :: text)) (quotedEscape text) := by
  unfold quotedEscape
  split
  · exact Yields.malformed
  · next letter rest =>
    split
    · trivial
    · split
      · next width found =>
        refine Yields.ite (fun both => ?_) fun _ => Yields.malformed
        obtain ⟨long, numeral⟩ := both
        have place : '\\' :: letter :: rest =
            [] ++ '\\' :: letter :: (rest.take width ++ rest.drop width) := by
          rw [List.nil_append, List.take_append_drop]
        cases denoted : escapedPoint (hexNumber (rest.take width)) with
        | ok char => trivial
        | error fault => exact Or.inr (.mk place (by rw [long]; exact found) numeral denoted)
      · refine Yields.ite (fun _ => ?_) fun _ => Yields.malformed
        exact (quotedBreaks_fails _).bind fun _ => trivial

/-- Only double quotes have escapes that can fail to denote a character. -/
theorem quotedScalar_fails (double : Bool) (text : List Char) :
    Fails (fun fault => double ∧ HasEscape text fault) (quotedScalar double text) := by
  have shift : ∀ {double : Bool} {text rest : List Char},
      Fails (fun fault => double ∧ HasEscape rest fault) (quotedScalar double rest) →
      rest <:+ text →
      Fails (fun fault => double ∧ HasEscape text fault) (quotedScalar double rest) :=
    fun fails inside => fails.imp (fun _ _ => trivial) fun fault =>
      And.imp_right fun has => has.suffix inside
  have tail : ∀ (char : Char) (rest : List Char) (count : Nat), rest.drop count <:+ char :: rest :=
    fun char rest count => (List.drop_suffix count rest).trans (List.suffix_cons char rest)
  fun_induction quotedScalar double text with
  | case1 => exact Yields.malformed
  | case2 char rest doubled inductionHypothesis =>
    exact (shift inductionHypothesis (tail char rest 1)).bind fun _ => trivial
  | case3 => trivial
  | case4 char rest notDoubled goesOn escape inductionHypothesis =>
    rw [Bool.and_eq_true, beq_iff_eq] at escape
    obtain ⟨rfl, rfl⟩ := escape
    have escaped : Fails (fun fault => true ∧ HasEscape ('\\' :: rest) fault) (quotedEscape rest) :=
      (quotedEscape_fails rest).imp (fun _ _ => trivial) fun _ has => ⟨rfl, has⟩
    refine escaped.bind fun found => ?_
    exact (shift (inductionHypothesis _) (tail '\\' rest _)).bind fun _ => trivial
  | case5 char rest notDoubled goesOn noEscape blank inductionHypothesis =>
    refine (quotedBlanks_fails _).bind fun found => ?_
    exact (shift (inductionHypothesis _) (tail char rest _)).bind fun _ => trivial
  | case6 char rest notDoubled goesOn noEscape solid inductionHypothesis =>
    exact (shift inductionHypothesis (List.suffix_cons char rest)).bind fun _ => trivial

/-! ### Versions -/

/-- A character that may stand between the name of a version line and its numbers. -/
def isVersionGap (char : Char) : Bool :=
  char == ' ' || char == '.' || isAsciiDigit char

/-- The text starts with the name of version lines, and a number on that line has too many
digits. -/
inductive HasVersion : List Char → Prop
  | mk {between digits after : List Char} (gap : ∀ char ∈ between, isVersionGap char)
      (numeral : ∀ char ∈ digits, isAsciiDigit char) (long : Decimal.digitLimit < digits.length) :
      HasVersion (['Y', 'A', 'M', 'L'] ++ (between ++ (digits ++ after)))

theorem take_runOf (inClass : Char → Bool) (text : List Char) :
    text.take (runOf inClass text) = text.takeWhile inClass :=
  (List.prefix_iff_eq_take.mp (List.takeWhile_prefix inClass)).symm

/-- Digits behind a gap of blanks, digits and points are those of a version. -/
theorem hasVersion_of_drop {body : List Char} {count : Nat}
    (gap : ∀ char ∈ body.take count, isVersionGap char)
    (long : Decimal.digitLimit < runOf isAsciiDigit (body.drop count)) :
    HasVersion (['Y', 'A', 'M', 'L'] ++ body) := by
  have whole : body = body.take count ++ ((body.drop count).takeWhile isAsciiDigit ++
      (body.drop count).dropWhile isAsciiDigit) := by
    rw [List.takeWhile_append_dropWhile, List.take_append_drop]
  rw [whole]
  exact .mk gap (List.all_eq_true.mp List.all_takeWhile) long

/-- A version number uses its digits, and there may be too many of them. -/
theorem versionNumber_yields (text : List Char) :
    Yields (fun found => found.2 = runOf isAsciiDigit text)
      (fun fault => fault = .outOfRange ∧ Decimal.digitLimit < runOf isAsciiDigit text)
      (versionNumber text) :=
  Yields.ite (fun _ => Yields.malformed) fun _ =>
    Yields.ite (fun long => Or.inr ⟨rfl, long⟩) fun _ => rfl

theorem isVersionGap_of_isAsciiDigit {char : Char} (digit : isAsciiDigit char) :
    isVersionGap char := by
  rw [isVersionGap, digit, Bool.or_true]

/-- The blanks in front of the major version. -/
theorem take_blanks_gap (body : List Char) :
    ∀ char ∈ body.take (runOf (· == ' ') body), isVersionGap char := by
  intro char member
  rw [take_runOf] at member
  have blank : (char == ' ') = true := List.all_eq_true.mp List.all_takeWhile char member
  rw [isVersionGap, blank, Bool.true_or, Bool.true_or]

/-- The blanks, the major version and the point in front of the minor version. -/
theorem take_major_gap {body : List Char} {used : Nat}
    (major : used = runOf isAsciiDigit (body.drop (runOf (· == ' ') body)))
    (pointed : peekAt (runOf (· == ' ') body + used) body = '.') :
    ∀ char ∈ body.take (runOf (· == ' ') body + used + 1), isVersionGap char := by
  have point : ∀ char ∈ (body.drop (runOf (· == ' ') body + used)).take 1, char = '.' := by
    rw [peekAt] at pointed
    cases behind : body.drop (runOf (· == ' ') body + used) with
    | nil => simp
    | cons first rest =>
      rw [behind, List.headD_cons] at pointed
      simp [pointed]
  rw [List.take_add, List.take_add]
  intro char member
  rcases List.mem_append.mp member with front | last
  · rcases List.mem_append.mp front with blank | digit
    · exact take_blanks_gap body char blank
    · rw [major, take_runOf] at digit
      exact isVersionGap_of_isAsciiDigit (List.all_eq_true.mp List.all_takeWhile char digit)
  · rw [point char last]
    rfl

/-- A directive line is malformed, or it has a version of too many digits. -/
theorem directiveLine_fails (text : List Char) :
    Fails (fun fault => fault = .outOfRange ∧ HasVersion text) (directiveLine text) := by
  have finish : ∀ found : DirectiveLine × Nat,
      Fails (fun fault => fault = .outOfRange ∧ HasVersion text) (do
        let ignored ← ignoredLine ((text.drop (runOf isNameChar text)).drop found.2)
        return (found.1, runOf isNameChar text + found.2 + ignored)) :=
    fun found => (ignoredLine_fails _).bind fun _ => trivial
  unfold directiveLine
  dsimp only
  split
  · exact Yields.malformed_bind
  split
  · next named =>
    have whole : text = ['Y', 'A', 'M', 'L'] ++ text.drop (runOf isNameChar text) := by
      rw [← beq_iff_eq.mp named, List.take_append_drop]
    have version : ∀ count, (∀ char ∈ (text.drop (runOf isNameChar text)).take count,
        isVersionGap char) →
        Yields (fun found => found.2 =
            runOf isAsciiDigit ((text.drop (runOf isNameChar text)).drop count))
          (fun fault => fault = .outOfRange ∧ HasVersion text)
          (versionNumber ((text.drop (runOf isNameChar text)).drop count)) := by
      intro count gap
      refine (versionNumber_yields _).imp (fun _ same => same) fun fault => ?_
      refine And.imp_right fun long => ?_
      rw [whole]
      exact hasVersion_of_drop gap long
    refine (version _ (take_blanks_gap _)).bind fun major majorUsed => ?_
    split
    · exact Yields.malformed_bind
    next pointed =>
    refine (version _ ?_).bind fun minor minorUsed => ?_
    · exact take_major_gap majorUsed (by simpa using pointed)
    split
    · exact Yields.malformed_bind
    rw [pure_bind]
    exact finish (_, _)
  split
  · refine (tagHandle_fails _).bind fun handle => ?_
    split
    · exact Yields.malformed_bind
    refine (tagUri_fails _).bind fun replacement => ?_
    split
    · exact Yields.malformed_bind
    rw [pure_bind]
    exact finish (_, _)
  · rw [pure_bind]
    exact finish (_, _)

/-! ### Places -/

/-- The places in a text at which a fault other than a malformed text arises. -/
inductive TextFault (text : List Char) : Fault → Prop
  | escape {body : List Char} {fault : Fault} (place : '"' :: body <:+ text)
      (has : HasEscape body fault) : TextFault text fault
  | version {body : List Char} (place : '%' :: body <:+ text) (has : HasVersion body) :
      TextFault text .outOfRange

/-- A place in the rest of a text is one in the text. -/
theorem TextFault.suffix {text rest : List Char} {fault : Fault} (found : TextFault rest fault)
    (inside : rest <:+ text) : TextFault text fault := by
  cases found with
  | escape place has => exact .escape (place.trans inside) has
  | version place has => exact .version (place.trans inside) has

theorem Cursor.rest_next_suffix (cursor : Cursor) : cursor.next.rest <:+ cursor.rest := by
  unfold Cursor.next
  split
  · exact List.suffix_rfl
  · next char rest found =>
    rw [found]
    split
    · exact List.suffix_cons char rest
    · split
      · exact List.suffix_cons char rest
      · exact List.suffix_cons char rest

/-- The cursor never goes back. -/
theorem Cursor.rest_forward_suffix (cursor : Cursor) (count : Nat) :
    (cursor.forward count).rest <:+ cursor.rest := by
  induction count generalizing cursor with
  | zero => exact List.suffix_rfl
  | succ count inductionHypothesis =>
    exact (inductionHypothesis cursor.next).trans cursor.rest_next_suffix

namespace Cutting

/-! ### What stays at its place -/

/-- A step after which the cursor is there. -/
def Stays (cursor : Cursor) (step : Except Fault Cutting) : Prop :=
  Yields (fun next => next.cursor = cursor) (fun _ => False) step

theorem dropStale_stays (state : Cutting) : Stays state.cursor state.dropStale :=
  Yields.ite (fun _ => Yields.malformed) fun _ => rfl

/-- Giving up a possible key moves nothing. -/
theorem dropKey_stays (state : Cutting) : Stays state.cursor state.dropKey := by
  unfold dropKey
  split
  · rfl
  · exact Yields.ite (fun _ => Yields.malformed) fun _ => rfl

theorem saveKey_stays (state : Cutting) : Stays state.cursor state.saveKey := by
  unfold saveKey
  refine Yields.ite (fun _ => ?_) fun _ => rfl
  exact state.dropKey_stays.bind fun next same => same

theorem openBlock_cursor (state : Cutting) (column : Nat) :
    (state.openBlock column).1.cursor = state.cursor := by
  unfold openBlock
  split <;> rfl

theorem openBlockHere_stays (token : Token) (state : Cutting) :
    Stays state.cursor (openBlockHere token state) := by
  unfold openBlockHere
  refine Yields.ite (fun _ => rfl) fun _ => Yields.ite (fun _ => Yields.malformed) fun _ => ?_
  have same := openBlock_cursor state state.cursor.column
  dsimp only
  split
  · exact same
  · exact same

theorem closeBlocks_cursor (column indent : Int) (outer : List Int) (state : Cutting) :
    (closeBlocks column indent outer state).cursor = state.cursor := by
  fun_induction closeBlocks column indent outer state with
  | case1 => rfl
  | case2 indent outer rest state deeper inductionHypothesis => exact inductionHypothesis
  | case3 => rfl

/-- Closing blocks moves nothing. -/
theorem unwind_cursor (state : Cutting) (column : Int) :
    (state.unwind column).cursor = state.cursor := by
  unfold unwind
  split
  · rfl
  · exact closeBlocks_cursor ..

/-! ### What moves on -/

/-- A step that moves the cursor on, if at all, and fails for a place in the rest of the text. -/
def Advances (cursor : Cursor) (step : Except Fault Cutting) : Prop :=
  Yields (fun next => next.cursor.rest <:+ cursor.rest) (TextFault cursor.rest) step

/-- A step that moves nothing, and then one that moves on. -/
theorem Stays.bind {cursor : Cursor} {step : Except Fault Cutting}
    {next : Cutting → Except Fault Cutting} (stays : Stays cursor step)
    (others : ∀ after, after.cursor = cursor → Advances cursor (next after)) :
    Advances cursor (step >>= next) :=
  Yields.bind (stays.imp (fun _ same => same) fun _ none => none.elim) others

theorem forward_suffix {cursor : Cursor} {next : Cutting} (same : next.cursor = cursor)
    (used : Nat) : (next.forward used).cursor.rest <:+ cursor.rest := by
  rw [← same]
  exact next.cursor.rest_forward_suffix used

theorem unwind_dropKey_stays (state : Cutting) (column : Int) :
    Stays state.cursor (state.unwind column).dropKey := by
  have stays := dropKey_stays (state.unwind column)
  rwa [unwind_cursor] at stays

theorem fetchEnd_advances (state : Cutting) : Advances state.cursor state.fetchEnd :=
  (unwind_dropKey_stays state (-1)).bind fun _ same => by
    rw [← same]
    exact List.suffix_rfl

/-- A directive is read from its percent sign, and its version may be the fault. -/
theorem fetchDirective_advances {state : Cutting} {rest : List Char}
    (mark : state.cursor.rest = '%' :: rest) : Advances state.cursor state.fetchDirective := by
  refine (unwind_dropKey_stays state (-1)).bind fun after same => ?_
  have line : Yields (fun _ => True) (TextFault state.cursor.rest)
      (directiveLine (after.cursor.rest.drop 1)) := by
    rw [same, mark, List.drop_one, List.tail_cons]
    refine (directiveLine_fails rest).imp (fun _ _ => trivial) ?_
    rintro _ ⟨rfl, has⟩
    exact .version List.suffix_rfl has
  exact Fails.bind line fun found => forward_suffix same (found.2 + 1)

theorem fetchDocumentMark_advances (token : Token) (state : Cutting) :
    Advances state.cursor (state.fetchDocumentMark token) :=
  (unwind_dropKey_stays state (-1)).bind fun _ same => forward_suffix same 3

theorem fetchFlowStart_advances (token : Token) (state : Cutting) :
    Advances state.cursor (state.fetchFlowStart token) :=
  state.saveKey_stays.bind fun _ same => forward_suffix same 1

theorem fetchFlowEnd_advances (token : Token) (state : Cutting) :
    Advances state.cursor (state.fetchFlowEnd token) :=
  state.dropKey_stays.bind fun _ same => forward_suffix same 1

theorem fetchFlowEntry_advances (state : Cutting) :
    Advances state.cursor state.fetchFlowEntry :=
  (dropKey_stays { state with allowKey := true }).bind fun _ same => forward_suffix same 1

theorem fetchBlockEntry_advances (state : Cutting) :
    Advances state.cursor state.fetchBlockEntry := by
  refine (openBlockHere_stays .blockSequenceStart state).bind fun opened same => ?_
  rw [← same]
  exact (dropKey_stays { opened with allowKey := true }).bind fun _ same => forward_suffix same 1

theorem fetchKey_advances (state : Cutting) : Advances state.cursor state.fetchKey := by
  refine (openBlockHere_stays .blockMappingStart state).bind fun opened same => ?_
  rw [← same]
  exact (dropKey_stays { opened with allowKey := opened.flowLevel == 0 }).bind
    fun _ same => forward_suffix same 1

/-- A value mark may open a block mapping at an earlier key, or here; the cursor moves over the mark
only. -/
theorem fetchValue_advances (state : Cutting) : Advances state.cursor state.fetchValue := by
  have finish : ∀ {cursor : Cursor} (next : Cutting), next.cursor = cursor →
      Advances cursor (pure ((next.forward 1).push .value)) :=
    fun _ same => forward_suffix same 1
  unfold fetchValue
  dsimp only
  split
  · split
    · rw [pure_bind]
      refine finish _ ?_
      split
      · exact openBlock_cursor ..
      · exact openBlock_cursor ..
    · exact finish _ rfl
  · refine (openBlockHere_stays .blockMappingStart state).bind fun opened same => ?_
    rw [← same]
    exact (dropKey_stays { opened with allowKey := opened.flowLevel == 0 }).bind finish

theorem fetchAnchor_advances (token : String → Token) (state : Cutting) :
    Advances state.cursor (state.fetchAnchor token) :=
  state.saveKey_stays.bind fun _ same => (anchorName_fails _).bind fun found =>
    forward_suffix same (found.2 + 1)

theorem fetchTag_advances (state : Cutting) : Advances state.cursor state.fetchTag :=
  state.saveKey_stays.bind fun _ same => (tagToken_fails _).bind fun found =>
    forward_suffix same found.2

theorem fetchBlockScalar_advances (folded : Bool) (state : Cutting) :
    Advances state.cursor (state.fetchBlockScalar folded) :=
  (dropKey_stays { state with allowKey := true }).bind fun _ same =>
    (blockScalar_fails ..).bind fun found => forward_suffix same (found.2 + 1)

/-- A quoted scalar is read from its quote, and an escape in double quotes may be the fault. -/
theorem fetchQuoted_advances {double : Bool} {state : Cutting} (rest : List Char)
    (mark : double → state.cursor.rest = '"' :: rest) :
    Advances state.cursor (state.fetchQuoted double) := by
  refine state.saveKey_stays.bind fun after same => ?_
  have scalar : Fails (TextFault state.cursor.rest)
      (quotedScalar double (after.cursor.rest.drop 1)) := by
    refine (quotedScalar_fails double _).imp (fun _ _ => trivial) ?_
    rintro fault ⟨quotes, has⟩
    rw [same, mark quotes, List.drop_one, List.tail_cons] at has
    rw [mark quotes]
    exact .escape List.suffix_rfl has
  exact scalar.bind fun found => forward_suffix same (found.2 + 1)

/-- A plain scalar has no faults. -/
theorem fetchPlain_advances (state : Cutting) : Advances state.cursor state.fetchPlain :=
  state.saveKey_stays.bind fun _ same => forward_suffix same _

/-- Blanks and comments are passed over. -/
theorem toNextToken_suffix (state : Cutting) :
    state.toNextToken.cursor.rest <:+ state.cursor.rest := by
  unfold toNextToken
  dsimp only
  split
  · split
    · exact (forward_suffix rfl _).trans (forward_suffix rfl 1)
    · exact (forward_suffix rfl _).trans (forward_suffix rfl 1)
  · split
    · exact forward_suffix rfl _
    · exact forward_suffix rfl _

theorem Advances.suffix {cursor start : Cursor} {step : Except Fault Cutting}
    (advances : Advances cursor step) (inside : cursor.rest <:+ start.rest) :
    Advances start step :=
  advances.imp (fun _ further => further.trans inside) fun _ found => found.suffix inside

/-- The next token is told by the next characters, and its own step accounts for the fault. -/
theorem fetch_advances (state : Cutting) : Advances state.cursor state.fetch := by
  refine Advances.suffix ?_ state.toNextToken_suffix
  refine (dropStale_stays _).bind fun next same => ?_
  have here := unwind_cursor next next.cursor.column
  dsimp only
  generalize next.unwind next.cursor.column = state at here ⊢
  rw [← same, ← here]
  split
  · exact fetchEnd_advances state
  · next char rest found =>
    have starts : ∀ {mark : Char}, char == mark → state.cursor.rest = mark :: rest := by
      intro mark same
      rw [found, beq_iff_eq.mp same]
    refine Yields.ite (fun mark => ?_) fun _ => ?_
    · exact fetchDirective_advances (starts (Bool.and_eq_true .. ▸ mark).1)
    refine Yields.ite (fun _ => fetchDocumentMark_advances ..) fun _ => ?_
    refine Yields.ite (fun _ => fetchDocumentMark_advances ..) fun _ => ?_
    refine Yields.ite (fun _ => fetchFlowStart_advances ..) fun _ => ?_
    refine Yields.ite (fun _ => fetchFlowStart_advances ..) fun _ => ?_
    refine Yields.ite (fun _ => fetchFlowEnd_advances ..) fun _ => ?_
    refine Yields.ite (fun _ => fetchFlowEnd_advances ..) fun _ => ?_
    refine Yields.ite (fun _ => fetchFlowEntry_advances state) fun _ => ?_
    refine Yields.ite (fun _ => fetchBlockEntry_advances state) fun _ => ?_
    refine Yields.ite (fun _ => fetchKey_advances state) fun _ => ?_
    refine Yields.ite (fun _ => fetchValue_advances state) fun _ => ?_
    refine Yields.ite (fun _ => fetchAnchor_advances ..) fun _ => ?_
    refine Yields.ite (fun _ => fetchAnchor_advances ..) fun _ => ?_
    refine Yields.ite (fun _ => fetchTag_advances state) fun _ => ?_
    refine Yields.ite (fun _ => fetchBlockScalar_advances ..) fun _ => ?_
    refine Yields.ite (fun _ => fetchBlockScalar_advances ..) fun _ => ?_
    refine Yields.ite
      (fun _ => fetchQuoted_advances rest fun double => absurd double Bool.false_ne_true)
      fun _ => ?_
    refine Yields.ite (fun mark => fetchQuoted_advances rest fun _ => starts mark) fun _ => ?_
    exact Yields.ite (fun _ => fetchPlain_advances state) fun _ => Yields.malformed

end Cutting

/-! ### Whole texts -/

/-- The fault that ends the cutting lies at the token that is cut last. -/
theorem cut_fault {steps : Nat} {state : Cutting} {fault : Fault}
    (failed : (cut steps state).fault = some fault) :
    fault = .malformed ∨ TextFault state.cursor.rest fault := by
  induction steps generalizing state with
  | zero => exact Or.inl (Option.some.inj failed).symm
  | succ steps inductionHypothesis =>
    have advances := state.fetch_advances
    unfold cut at failed
    split at failed
    · next other fetched =>
      rw [fetched] at advances
      split at failed
      · exact Or.inl (Option.some.inj failed).symm
      · obtain rfl := Option.some.inj failed
        exact advances
    · next after fetched =>
      rw [fetched] at advances
      split at failed
      · nomatch failed
      · exact (inductionHypothesis failed).imp_right fun found => found.suffix advances

/-- A text that is not cut to its end is malformed, or has a place for the fault. -/
theorem tokensOf_fault {text : List Char} {fault : Fault}
    (failed : (tokensOf text).fault = some fault) : fault = .malformed ∨ TextFault text fault := by
  unfold tokensOf at failed
  split at failed
  · exact cut_fault failed
  · exact Or.inl (Option.some.inj failed).symm

end GoApiDoc.Yaml
