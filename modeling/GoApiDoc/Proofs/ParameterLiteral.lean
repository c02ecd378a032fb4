/-
This file says which marked values give parameters. A value that is marked as a parameter has to
bind one name to one literal, but what is looked at is the spelling of the whole initialiser, put
together again from its tokens. So the question is which runs of tokens are spelled like a literal:
single literals, and besides them the runs of several tokens that start and end with raw literals.
A comma behind the initialiser starts no second one and is passed over.

Every other marked value is a fault, and the fault has words, unless the decoder comes to an escape
whose number is too large to be looked at.
-/

import GoApiDoc.Report
import GoApiDoc.Proofs.Association
import GoApiDoc.Proofs.Literals

namespace GoApiDoc

open Go Text

/-! ### Initialisers in the source -/

/-- The tokens of the initialisers of the declaration that starts here, a run for each specification
that has initialisers. -/
def initialisersAt (head : List Token) : List (List Token) :=
  (topLevelRuns head).map fun run => run.take (initialisers 0 [] run).2

theorem lastRun_eq_nil {current : List Token}
    (none : (if current.isEmpty then [] else [Token.join current.reverse]) = []) :
    current = [] := by
  split at none
  · next empty => exact List.isEmpty_iff.mp empty
  · nomatch none

theorem lastRun_eq_singleton {current : List Token} {literal : String}
    (one : (if current.isEmpty then [] else [Token.join current.reverse]) = [literal]) :
    literal = Token.join (current.reverse ++ []) := by
  split at one
  · nomatch one
  · rw [List.append_nil]
    exact (List.cons.inj one).1.symm

theorem initialisers_eq_nil {depth : Int} {current tokens : List Token} {used : Nat}
    (read : initialisers depth current tokens = ([], used)) : current = [] ∧ used = 0 := by
  induction tokens generalizing depth current used with
  | nil =>
    simp only [initialisers, Prod.mk.injEq] at read
    exact ⟨lastRun_eq_nil read.1, read.2.symm⟩
  | cons token rest inductionHypothesis =>
    unfold initialisers at read
    split at read
    · simp only [Prod.mk.injEq] at read
      exact ⟨lastRun_eq_nil read.1, read.2.symm⟩
    · split at read
      · simp at read
      · -- The run that is open here holds a token, so it gives a value.
        simp only [Prod.mk.injEq] at read
        exact absurd (inductionHypothesis (Prod.ext read.1 rfl)).1 (List.cons_ne_nil _ _)

/-- A single initialiser is spelled as its tokens, and a comma may stand behind them. -/
theorem initialisers_eq_singleton {depth : Int} {current tokens : List Token} {literal : String}
    {used : Nat} (read : initialisers depth current tokens = ([literal], used)) :
    ∃ run, literal = Token.join (current.reverse ++ run) ∧
      (tokens.take used = run ∨ ∃ comma, comma.isOp "," ∧ tokens.take used = run ++ [comma]) := by
  induction tokens generalizing depth current used with
  | nil =>
    simp only [initialisers, Prod.mk.injEq] at read
    exact ⟨[], lastRun_eq_singleton read.1, Or.inl List.take_nil⟩
  | cons token rest inductionHypothesis =>
    unfold initialisers at read
    split at read
    · simp only [Prod.mk.injEq] at read
      obtain ⟨values, rfl⟩ := read
      exact ⟨[], lastRun_eq_singleton values, Or.inl rfl⟩
    · split at read
      · next separates =>
        simp only [Prod.mk.injEq, List.cons.injEq] at read
        obtain ⟨⟨rfl, others⟩, rfl⟩ := read
        have nothing : (initialisers depth [] rest).snd = 0 :=
          (initialisers_eq_nil (Prod.ext others rfl)).2
        refine ⟨[], by rw [List.append_nil], Or.inr ⟨token, separates.2, ?_⟩⟩
        rw [nothing]
        rfl
      · simp only [Prod.mk.injEq] at read
        obtain ⟨values, rfl⟩ := read
        obtain ⟨run, spelled, taken⟩ := inductionHypothesis (Prod.ext values rfl)
        refine ⟨token :: run, ?_, ?_⟩
        · rw [spelled, List.reverse_cons, List.append_assoc, List.singleton_append]
        · simp only [List.take_succ_cons, List.cons_append, List.cons.injEq, true_and]
          exact taken

theorem valueSpec_singleton {tokens : List Token} {names : List String} {literal : String}
    {used : Nat} (read : valueSpec tokens = .ok (⟨names, [literal]⟩, used)) :
    ∃ rest, initialiserRun tokens = [rest] ∧ rest <:+ tokens ∧
      (initialisers 0 [] rest).1 = [literal] := by
  obtain ⟨names, namesUsed, typeUsed, readNames, readType, branch⟩ := valueSpec_eq_ok read
  obtain ⟨mark, rest, behind, isMark, found, -⟩ | ⟨-, found, -⟩ := branch
  · have start : tokens.drop (namesUsed + typeUsed + 1) = rest := by
      rw [← List.drop_drop, behind, List.drop_one, List.tail_cons]
    refine ⟨rest, ?_, start ▸ List.drop_suffix _ tokens, (ValueSpec.mk.inj found).2.symm⟩
    simp only [initialiserRun, usedBy_map_snd readNames, usedBy_ok readType, behind, nextIs_cons,
      if_pos isMark, start]
  · exact absurd (ValueSpec.mk.inj found).2 (List.cons_ne_nil _ _)

/-- A declaration with one specification that has one initialiser reads initialisers at one place
only. -/
theorem valueDeclaration_singleton {docs : Docs} {keyword : ValueKeyword} {line used : Nat}
    {tokens : List Token} {found : ValueDeclaration} {names : List String} {literal : String}
    (read : valueDeclaration docs keyword line tokens = .ok (found, used))
    (one : found.specs = [⟨names, [literal]⟩]) :
    ∃ rest, initialiserRuns tokens = [rest] ∧ rest <:+ tokens ∧
      (initialisers 0 [] rest).1 = [literal] := by
  obtain ⟨specs, rfl, branch⟩ := valueDeclaration_eq_ok read
  obtain rfl : specs = [⟨names, [literal]⟩] := one
  obtain ⟨opener, rest, group, rfl, opens, readGroup, -⟩ | ⟨alone, spec, readSpec, same⟩ := branch
  · have opened : nextIs "(" (opener :: rest) := opens
    have items : List.Forall₂
        (fun spec start => start <:+ rest ∧ ∃ used, valueSpec start = .ok (spec, used))
        [⟨names, [literal]⟩] (itemStarts ")" (fun tokens => single (valueSpec tokens)) rest) := by
      refine forall₂_itemStarts (fun start own used inside readOwn => ?_) readGroup
      obtain ⟨spec, readSpec, rfl⟩ := single_eq_ok.mp readOwn
      exact ⟨spec, rfl, inside, used, readSpec⟩
    obtain ⟨start, others, ⟨inside, specUsed, readSpec⟩, none, starts⟩ :=
      List.forall₂_cons_left_iff.mp items
    obtain rfl := List.forall₂_nil_left_iff.mp none
    obtain ⟨run, runs, within, values⟩ := valueSpec_singleton readSpec
    refine ⟨run, ?_, within.trans (inside.trans (List.suffix_cons opener rest)), values⟩
    rw [initialiserRuns, if_pos opened, List.drop_one, List.tail_cons, starts,
      List.flatMap_singleton, runs]
  · obtain rfl := (List.cons.inj same).1
    rw [initialiserRuns, if_neg (ne_true_of_eq_false alone)]
    exact valueSpec_singleton readSpec

/-! ### One name and one initialiser -/

/-- The declaration binds the name to the run of tokens, which stands behind the head; a comma may
follow. -/
structure Go.ValueDeclaration.Binds (declaration : ValueDeclaration) (head : List Token)
    (name : String) (run : List Token) : Prop where
  specs : declaration.specs = [⟨[name], [Token.join run]⟩]
  taken : initialisersAt head = [run] ∨
    ∃ comma : Token, comma.isOp "," ∧ initialisersAt head = [run ++ [comma]]
  inside : run <:+: head

/-- One name with one initialiser is bound to a run of tokens of the source. -/
def Go.Declaration.BindsAt (declaration : Declaration) (head : List Token) : Prop :=
  ∀ value name literal, declaration = .value value → value.specs = [⟨[name], [literal]⟩] →
    ∃ run, literal = Token.join run ∧ value.Binds head name run

theorem bindsAt_value {docs : Docs} {keyword : Token} {rest : List Token} {line used : Nat}
    {valueKeyword : ValueKeyword} {found : ValueDeclaration}
    (text : keyword.text = valueKeyword.text)
    (read : valueDeclaration docs valueKeyword line rest = .ok (found, used)) :
    (Declaration.value found).BindsAt (keyword :: rest) := by
  intro value name literal same one
  obtain rfl := Declaration.value.inj same
  obtain ⟨start, runs, inside, values⟩ := valueDeclaration_singleton read one
  obtain ⟨run, rfl, taken⟩ := initialisers_eq_singleton (Prod.ext values rfl)
  rw [List.reverse_nil, List.nil_append] at one ⊢
  have either : keyword.text = "const" ∨ keyword.text = "var" := by
    cases valueKeyword with
    | const => exact Or.inl text
    | var => exact Or.inr text
  have whole : initialisersAt (keyword :: rest) = [start.take (initialisers 0 [] start).2] := by
    rw [initialisersAt, topLevelRuns, if_pos either, runs, List.map_singleton]
  have within : start.take (initialisers 0 [] start).2 <:+: keyword :: rest :=
    (List.take_prefix _ start).isInfix.trans
      (inside.trans (List.suffix_cons keyword rest)).isInfix
  rcases taken with taken | ⟨comma, isComma, taken⟩
  · rw [taken] at whole within
    exact ⟨run, rfl, one, Or.inl whole, within⟩
  · rw [taken] at whole within
    exact ⟨run, rfl, one, Or.inr ⟨comma, isComma, whole⟩,
      (List.prefix_append run [comma]).isInfix.trans within⟩

theorem bindsAt_topLevel {docs : Docs} {keyword : Token} {rest : List Token}
    {found : List Declaration} {used : Nat}
    (read : topLevel docs keyword rest = .ok (found, used)) :
    List.Forall₂ (fun declaration head => head <:+ keyword :: rest ∧ declaration.BindsAt head) found
      (headsAt docs (keyword :: rest)) := by
  have others : (∀ declaration ∈ found, ∀ value, declaration ≠ .value value) →
      List.Forall₂ (fun declaration head => head <:+ keyword :: rest ∧ declaration.BindsAt head)
        found (headsAt docs (keyword :: rest)) := by
    intro none
    refine ((List.forall₂_and_left _ _).mpr ⟨none, heads_topLevel read⟩).imp ?_
    rintro declaration head ⟨noValue, headOf⟩
    exact ⟨headOf.rest, fun value _ _ same => absurd same (noValue value)⟩
  obtain ⟨-, form⟩ := topForm_of_topLevel read
  cases form with
  | package text named nameKind => exact others (by simp)
  | importGroup text opened skip => exact others (by simp)
  | importLine text unopened => exact others (by simp)
  | type text readType => exact others (by simp)
  | function text readFunction => exact others (by simp)
  | value valueKeyword text readValue =>
    rw [headsAt_of_value text]
    exact .cons ⟨List.suffix_rfl, bindsAt_value text readValue⟩ .nil

/-! ### Runs that pass for a literal -/

/-- The runs of tokens that are decoded, with what they are decoded to: a single literal, and
several tokens of which the first and the last are raw literals. -/
inductive Passes : List Token → Text → Prop
  | single {literal : Token} {text : Text} (kind : literal.kind = .string ∨ literal.kind = .rune)
      (decoded : unquote literal.text = .ok text) : Passes [literal] text
  | spread {first last : Token} {middle : List Token} (starts : first.quote? = some backquote)
      (ends : last.quote? = some backquote) :
      Passes (first :: (middle ++ [last]))
        (.plain (between (Token.join (first :: (middle ++ [last])))))

/-- The runs of tokens for which decoding ends without words: the first literal has an escape whose
number is too large, and the last token ends with the same quote. -/
inductive Overflows : List Token → Prop
  | single {literal : Token} (fails : unquote literal.text = .error .escapeTooLarge) :
      Overflows [literal]
  | spread {first last : Token} {middle : List Token} (same : first.quote? = last.quote?)
      (fails : unquote first.text = .error .escapeTooLarge) :
      Overflows (first :: (middle ++ [last]))

theorem join_singleton (token : Token) : Token.join [token] = token.text := by
  rw [Token.join, Token.joinAfter, String.append_empty]

/-- A run has no token, one, or a first and a last one. -/
theorem exists_ends (run : List Token) :
    run = [] ∨ (∃ token, run = [token]) ∨
      ∃ first middle last, run = first :: (middle ++ [last]) := by
  cases run with
  | nil => exact Or.inl rfl
  | cons first rest =>
    rcases List.eq_nil_or_concat rest with rfl | ⟨middle, last, rfl⟩
    · exact Or.inr (Or.inl ⟨first, rfl⟩)
    · exact Or.inr (Or.inr ⟨first, middle, last, by rw [List.concat_eq_append]⟩)

section

variable {run : List Token} (spelled : ∀ token ∈ run, token.Spelled)
include spelled

theorem unquote_join_iff_passes {text : Text} :
    unquote (Token.join run) = .ok text ↔ Passes run text := by
  constructor
  · intro decoded
    rcases exists_ends run with rfl | ⟨token, rfl⟩ | ⟨first, middle, last, rfl⟩
    · nomatch decoded
    · rw [join_singleton] at decoded
      exact .single (kind_of_unquote (spelled token (by simp)) decoded) decoded
    · obtain ⟨starts, ends, rfl⟩ :=
        (unquote_join_eq_ok (spelled first (by simp)) (spelled last (by simp))).mp decoded
      exact .spread starts ends
  · intro passes
    cases passes with
    | single kind decoded =>
      rw [join_singleton]
      exact decoded
    | @spread first last middle starts ends =>
      exact (unquote_join_eq_ok (spelled first (by simp)) (spelled last (by simp))).mpr
        ⟨starts, ends, rfl⟩

theorem unquote_join_iff_overflows :
    unquote (Token.join run) = .error .escapeTooLarge ↔ Overflows run := by
  constructor
  · intro fails
    rcases exists_ends run with rfl | ⟨token, rfl⟩ | ⟨first, middle, last, rfl⟩
    · nomatch fails
    · rw [join_singleton] at fails
      exact .single fails
    · obtain ⟨same, fails⟩ := (unquote_join_eq_escapeTooLarge (spelled first (by simp))
        (spelled last (by simp))).mp fails
      exact .spread same fails
  · intro overflows
    cases overflows with
    | single fails =>
      rw [join_singleton]
      exact fails
    | @spread first last middle same fails =>
      exact (unquote_join_eq_escapeTooLarge (spelled first (by simp))
        (spelled last (by simp))).mpr ⟨same, fails⟩

end

/-! ### Marked values -/

/-- The directive of a parameter with this name. -/
def parameterDirective (value : ValueDeclaration) (body name : String) (text : Text) :
    Directive where
  kind := .parameter
  declaration := .value value
  name := some name
  body
  comment := cleanComment value.doc
  parameterName := some text

/-- What becomes of a declaration marked as a parameter. It gives a directive exactly when it binds
one name to a run of tokens that passes for a literal, and the name of the parameter is what the run
is decoded to; it gives a fault without words exactly when decoding ends without them. -/
def Go.Declaration.GivesParameter (declaration : Declaration) (head : List Token) : Prop :=
  ∀ value body, declaration = .value value →
    bodyAfterTag .parameter (cleanComment value.doc) = some body →
    (∀ found, extractDirective declaration = .ok found ↔
      ∃ name run text, value.Binds head name run ∧ Passes run text ∧
        found = some (parameterDirective value body name text)) ∧
    ((∃ fault, extractDirective declaration = .error fault ∧ fault.message? = none) ↔
      ∃ name run, value.Binds head name run ∧ Overflows run)

section

variable {value : ValueDeclaration} {body : String}
  (marked : bodyAfterTag .parameter (cleanComment value.doc) = some body)
include marked

theorem valueDirective_of_ne (other : ∀ name literal, value.specs ≠ [⟨[name], [literal]⟩]) :
    valueDirective value = .error (.notOneLiteral value) := by
  simp only [valueDirective, marked]

theorem valueDirective_of_single {name literal : String}
    (one : value.specs = [⟨[name], [literal]⟩]) :
    valueDirective value = match unquote literal with
      | .error fault => .error (.badLiteral name literal fault)
      | .ok text => .ok (some (parameterDirective value body name text)) := by
  simp only [valueDirective, marked, one]
  cases unquote literal <;> rfl

end

theorem message?_eq_none {fault : ParameterFault} :
    fault.message? = none ↔ ∃ name literal, fault = .badLiteral name literal .escapeTooLarge := by
  unfold ParameterFault.message?
  split
  · next name literal => exact ⟨fun _ => ⟨name, literal, rfl⟩, fun _ => rfl⟩
  · next other =>
    refine ⟨fun none => (nomatch none), ?_⟩
    rintro ⟨name, literal, rfl⟩
    exact absurd rfl (other name literal)

/-- What is bound is determined by the declaration, up to the tokens that spell the same. -/
theorem Go.ValueDeclaration.Binds.unique {value : ValueDeclaration} {head run others : List Token}
    {name other : String} (binds : value.Binds head name run)
    (bindsOther : value.Binds head other others) :
    other = name ∧ Token.join others = Token.join run := by
  have same := bindsOther.specs.symm.trans binds.specs
  simpa only [List.cons.injEq, ValueSpec.mk.injEq, and_true] using same

theorem givesParameter_of_binds {value : ValueDeclaration} {head run : List Token} {name : String}
    (spelled : ∀ token ∈ head, token.Spelled) (binds : value.Binds head name run) :
    (Declaration.value value).GivesParameter head := by
  rintro _ body ⟨⟩ marked
  have tokens : ∀ {name run}, value.Binds head name run → ∀ token ∈ run, token.Spelled :=
    fun binds token member => spelled token (binds.inside.subset member)
  rw [extractDirective, valueDirective_of_single marked binds.specs]
  cases decoded : unquote (Token.join run) with
  | ok text =>
    refine ⟨fun found => ⟨?_, ?_⟩, ?_, ?_⟩
    · rintro ⟨⟩
      exact ⟨name, run, text, binds, (unquote_join_iff_passes (tokens binds)).mp decoded, rfl⟩
    · rintro ⟨other, others, value, bindsOther, passes, rfl⟩
      have read := (unquote_join_iff_passes (tokens bindsOther)).mpr passes
      obtain ⟨rfl, same⟩ := binds.unique bindsOther
      rw [same, decoded] at read
      obtain rfl := Except.ok.inj read
      rfl
    · rintro ⟨fault, read, -⟩
      nomatch read
    · rintro ⟨other, others, bindsOther, overflows⟩
      have fails := (unquote_join_iff_overflows (tokens bindsOther)).mpr overflows
      rw [(binds.unique bindsOther).2, decoded] at fails
      nomatch fails
  | error fault =>
    refine ⟨fun found => ⟨?_, ?_⟩, ?_, ?_⟩
    · intro read
      nomatch read
    · rintro ⟨other, others, value, bindsOther, passes, rfl⟩
      have read := (unquote_join_iff_passes (tokens bindsOther)).mpr passes
      rw [(binds.unique bindsOther).2, decoded] at read
      nomatch read
    · rintro ⟨silent, failed, noWords⟩
      obtain ⟨_, _, rfl⟩ := message?_eq_none.mp noWords
      obtain ⟨-, -, rfl⟩ := ParameterFault.badLiteral.inj (Except.error.inj failed)
      exact ⟨name, run, binds, (unquote_join_iff_overflows (tokens binds)).mp decoded⟩
    · rintro ⟨other, others, bindsOther, overflows⟩
      have fails := (unquote_join_iff_overflows (tokens bindsOther)).mpr overflows
      rw [(binds.unique bindsOther).2, decoded] at fails
      obtain rfl := Except.error.inj fails
      exact ⟨_, rfl, message?_eq_none.mpr ⟨_, _, rfl⟩⟩

theorem givesParameter_of_bindsAt {declaration : Declaration} {head : List Token}
    (spelled : ∀ token ∈ head, token.Spelled) (bindsAt : declaration.BindsAt head) :
    declaration.GivesParameter head := by
  rintro value body rfl marked
  by_cases single : ∃ name literal, value.specs = [⟨[name], [literal]⟩]
  · obtain ⟨name, literal, one⟩ := single
    obtain ⟨run, rfl, binds⟩ := bindsAt value name literal rfl one
    exact givesParameter_of_binds spelled binds value body rfl marked
  · have other : ∀ name literal, value.specs ≠ [⟨[name], [literal]⟩] :=
      fun name literal one => single ⟨name, literal, one⟩
    rw [extractDirective, valueDirective_of_ne marked other]
    refine ⟨fun found => ⟨fun read => (nomatch read), ?_⟩, ?_, ?_⟩
    · rintro ⟨name, run, text, binds, -⟩
      exact absurd binds.specs (other name _)
    · rintro ⟨fault, failed, silent⟩
      obtain ⟨name, literal, rfl⟩ := message?_eq_none.mp silent
      nomatch failed
    · rintro ⟨name, run, binds, -⟩
      exact absurd binds.specs (other name _)

/-- The declarations of a source start at its heads, one at each. Those that are marked as
parameters are accepted exactly when one name is bound to a run of tokens that passes for a literal,
and the others are refused, in words unless decoding ends without them. -/
theorem readSource_parameters (source : String) (found : List Declaration)
    (accepted : readSource source = .ok found) :
    List.Forall₂ Declaration.GivesParameter found (headsOf source) := by
  obtain ⟨layout, laid, read⟩ := readSource_eq_ok.mp accepted
  have spelled := spelled_of_layoutOf laid
  obtain rfl := layoutOf_eq_pieces laid
  refine forall₂_headsFrom (fun keyword rest own used inside readOwn => ?_) read
  refine (bindsAt_topLevel readOwn).imp fun declaration head bound => ?_
  refine givesParameter_of_bindsAt (fun token member => ?_) bound.2
  exact spelled token ((bound.1.trans inside).subset member)

/-- The statement at a constant that is bound to one literal. -/
theorem readSource_parameters_constant :
    let source := "package p\n\n// gopenapi:parameter\n// in: query\nconst X = \"a\\x62\"\n"
    let value : ValueDeclaration :=
      ⟨.const, "gopenapi:parameter\nin: query\n", [⟨["X"], ["\"a\\x62\""]⟩], 5⟩
    readSource source = .ok [.value value] ∧
      extractDirective (.value value) =
        .ok (some (parameterDirective value "\nin: query" "X" "ab")) := by
  intro source value
  have read : readSource source = .ok [.value value] := eq_ok_of_toOption (by decide +kernel)
  have heads : headsOf source = [[⟨.keyword, "const", 5⟩, ⟨.ident, "X", 5⟩, ⟨.op, "=", 5⟩,
      ⟨.string, "\"a\\x62\"", 5⟩, .terminator 5]] := by decide +kernel
  have gives := readSource_parameters source _ read
  rw [heads, List.forall₂_cons] at gives
  have marked : bodyAfterTag .parameter (cleanComment value.doc) = some "\nin: query" := by
    decide +kernel
  refine ⟨read, ((gives.1 value _ rfl marked).1 _).mpr ⟨"X", [⟨.string, "\"a\\x62\"", 5⟩], "ab", ?_,
    .single (Or.inl rfl) (by decide +kernel), rfl⟩⟩
  exact ⟨by decide +kernel, Or.inl (by decide +kernel), by decide +kernel⟩

/-- A sum of two raw literals passes for one literal. -/
theorem sum_of_raw_literals_accepted :
    let source := "package p\n\n// gopenapi:parameter\nconst X = \x60a\x60 + \x60b\x60\n"
    let value : ValueDeclaration :=
      ⟨.const, "gopenapi:parameter\n", [⟨["X"], ["\x60a\x60+\x60b\x60"]⟩], 4⟩
    readSource source = .ok [.value value] ∧
      (headsOf source).map initialisersAt =
        [[[⟨.string, "\x60a\x60", 4⟩, ⟨.op, "+", 4⟩, ⟨.string, "\x60b\x60", 4⟩]]] ∧
      extractDirective (.value value) =
        .ok (some (parameterDirective value "" "X" "a\x60+\x60b")) := by
  intro source value
  exact ⟨eq_ok_of_toOption (by decide +kernel), by decide +kernel,
    eq_ok_of_toOption (by decide +kernel)⟩

end GoApiDoc
