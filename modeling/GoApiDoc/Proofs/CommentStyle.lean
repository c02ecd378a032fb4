/-
This file says that the two styles of comment carry the same documentation. A block comment that
holds some lines and line comments of the same lines, above the same declaration, give the same
declaration but for its line, and the text of its documentation is the normal form of the lines:
no blanks at the end of a line, no blank line first or last, and never two in a row. What is taken
from the documentation is therefore the same for both.

On the way to the reader the two styles are told apart twice, in the lexemes and in the lines that
a comment holds. A block comment adds a blank line in front of its lines and one behind them, which
the normal form does not see.
-/

import GoApiDoc.Directive
import GoApiDoc.Proofs.Locality
import Mathlib.Data.List.DropRight

namespace GoApiDoc.Go

open Text

/-! ### The normal form -/

/-- The lines with each run of blank ones reduced to its last. -/
def squeezed : List (List Char) → List (List Char)
  | first :: second :: rest =>
    if first.isEmpty && second.isEmpty then squeezed (second :: rest)
    else first :: squeezed (second :: rest)
  | short => short

/-- The normal form of some lines: each without blanks at its end, no blank line first or last, one
blank line for each run of them, and a line break behind the last line and between the lines. -/
def normalForm (lines : List (List Char)) : String :=
  let inner := dropTrailingBlanks ((lines.map trimRight).dropWhile List.isEmpty)
  if inner.isEmpty then "" else String.ofList (['\n'].intercalate (squeezed inner) ++ ['\n'])

theorem squeezed_text {line : List Char} (text : line.isEmpty = false) (rest : List (List Char)) :
    squeezed (line :: rest) = line :: squeezed rest := by
  cases rest with
  | nil => rfl
  | cons next rest => rw [squeezed, text, Bool.false_and, if_neg Bool.false_ne_true]

theorem dropWhile_text {line : List Char} (text : line.isEmpty = false) (rest : List (List Char)) :
    (line :: rest).dropWhile List.isEmpty = line :: rest := by
  rw [List.dropWhile_cons, if_neg (ne_true_of_eq_false text)]

theorem dropWhile_blank (rest : List (List Char)) :
    ([] :: rest).dropWhile List.isEmpty = rest.dropWhile List.isEmpty :=
  rfl

theorem squeezed_blank (rest : List (List Char)) :
    squeezed ([] :: rest) = [] :: (squeezed rest).dropWhile List.isEmpty := by
  induction rest with
  | nil => rfl
  | cons next rest inductionHypothesis =>
    cases next with
    | nil =>
      have skipped : squeezed ([] :: [] :: rest) = squeezed ([] :: rest) := rfl
      rw [skipped, inductionHypothesis, dropWhile_blank, List.dropWhile_idempotent]
    | cons char line =>
      have kept : squeezed ([] :: (char :: line) :: rest) =
          [] :: squeezed ((char :: line) :: rest) := rfl
      rw [kept, squeezed_text rfl, dropWhile_text rfl]

/-- Collapsing keeps one blank line of each run, and none at the front. -/
theorem collapseBlanks_eq (lines : List (List Char)) :
    collapseBlanks true lines = squeezed lines ∧
      collapseBlanks false lines = (squeezed lines).dropWhile List.isEmpty := by
  induction lines with
  | nil => exact ⟨rfl, rfl⟩
  | cons line rest inductionHypothesis =>
    obtain ⟨afterText, afterBlank⟩ := inductionHypothesis
    cases line with
    | nil =>
      rw [squeezed_blank, dropWhile_blank, List.dropWhile_idempotent, ← afterBlank]
      exact ⟨rfl, rfl⟩
    | cons char line =>
      rw [squeezed_text rfl, dropWhile_text rfl, ← afterText]
      exact ⟨rfl, rfl⟩

theorem dropWhile_squeezed (lines : List (List Char)) :
    (squeezed lines).dropWhile List.isEmpty = squeezed (lines.dropWhile List.isEmpty) := by
  induction lines with
  | nil => rfl
  | cons line rest inductionHypothesis =>
    cases line with
    | nil =>
      rw [squeezed_blank, dropWhile_blank, List.dropWhile_idempotent, inductionHypothesis,
        dropWhile_blank]
    | cons char line =>
      rw [squeezed_text rfl, dropWhile_text rfl, dropWhile_text rfl, squeezed_text rfl]

theorem dropTrailingBlanks_cons (line : List Char) (rest : List (List Char)) :
    dropTrailingBlanks (line :: rest) =
      if (dropTrailingBlanks rest).isEmpty then [line].dropWhile List.isEmpty
      else line :: dropTrailingBlanks rest := by
  unfold dropTrailingBlanks
  rw [List.reverse_cons, List.dropWhile_append, List.isEmpty_reverse]
  split
  · rw [List.dropWhile_cons]
    split
    · rfl
    · rfl
  · rw [List.reverse_append]
    rfl

theorem dropTrailingBlanks_text {line : List Char} (text : line.isEmpty = false)
    (rest : List (List Char)) :
    dropTrailingBlanks (line :: rest) = line :: dropTrailingBlanks rest := by
  rw [dropTrailingBlanks_cons, dropWhile_text text]
  split
  · next blank => rw [List.isEmpty_iff.mp blank]
  · rfl

theorem dropTrailingBlanks_blank (rest : List (List Char)) :
    dropTrailingBlanks ([] :: rest) =
      if (dropTrailingBlanks rest).isEmpty then [] else [] :: dropTrailingBlanks rest :=
  dropTrailingBlanks_cons [] rest

theorem dropTrailingBlanks_dropWhile (lines : List (List Char)) :
    dropTrailingBlanks (lines.dropWhile List.isEmpty) =
      (dropTrailingBlanks lines).dropWhile List.isEmpty := by
  induction lines with
  | nil => rfl
  | cons line rest inductionHypothesis =>
    cases line with
    | nil =>
      rw [dropWhile_blank, inductionHypothesis, dropTrailingBlanks_blank]
      split
      · next blank => rw [List.isEmpty_iff.mp blank]
      · rw [dropWhile_blank]
    | cons char line => rw [dropWhile_text rfl, dropTrailingBlanks_text rfl, dropWhile_text rfl]

/-- What is left without the blank lines at the end is not blank. -/
theorem dropWhile_dropTrailingBlanks_isEmpty (lines : List (List Char)) :
    ((dropTrailingBlanks lines).dropWhile List.isEmpty).isEmpty =
      (dropTrailingBlanks lines).isEmpty := by
  induction lines with
  | nil => rfl
  | cons line rest inductionHypothesis =>
    cases line with
    | nil =>
      rw [dropTrailingBlanks_blank]
      split
      · rfl
      · next text =>
        rw [dropWhile_blank, inductionHypothesis, eq_false_of_ne_true text]
        rfl
    | cons char line => rw [dropTrailingBlanks_text rfl, dropWhile_text rfl]

theorem isEmpty_squeezed (lines : List (List Char)) : (squeezed lines).isEmpty = lines.isEmpty := by
  cases lines with
  | nil => rfl
  | cons line rest =>
    cases line with
    | nil => rw [squeezed_blank, List.isEmpty_cons, List.isEmpty_cons]
    | cons char line => rw [squeezed_text rfl, List.isEmpty_cons, List.isEmpty_cons]

theorem dropTrailingBlanks_squeezed (lines : List (List Char)) :
    dropTrailingBlanks (squeezed lines) = squeezed (dropTrailingBlanks lines) := by
  induction lines with
  | nil => rfl
  | cons line rest inductionHypothesis =>
    cases line with
    | nil =>
      have same : ((squeezed (dropTrailingBlanks rest)).dropWhile List.isEmpty).isEmpty =
          (dropTrailingBlanks rest).isEmpty := by
        rw [dropWhile_squeezed, isEmpty_squeezed, dropWhile_dropTrailingBlanks_isEmpty]
      rw [squeezed_blank, dropTrailingBlanks_blank, dropTrailingBlanks_dropWhile,
        inductionHypothesis, same, dropTrailingBlanks_blank]
      split
      · rfl
      · rw [squeezed_blank]
    | cons char line =>
      rw [squeezed_text rfl, dropTrailingBlanks_text rfl, inductionHypothesis,
        dropTrailingBlanks_text rfl, squeezed_text rfl]

theorem intercalate_append_newline {lines : List (List Char)} (full : lines ≠ []) :
    ['\n'].intercalate lines ++ ['\n'] = lines.flatMap (· ++ ['\n']) := by
  induction lines with
  | nil => exact absurd rfl full
  | cons line rest inductionHypothesis =>
    cases rest with
    | nil => simp
    | cons next rest =>
      rw [List.intercalate_cons_cons, List.flatMap_cons,
        ← inductionHypothesis (List.cons_ne_nil _ _)]
      simp only [List.append_assoc]

/-- The text of comment lines is their normal form. -/
theorem docText_eq_normalForm (lines : List (List Char)) : docText lines = normalForm lines := by
  have kept : dropTrailingBlanks (collapseBlanks false (lines.map trimRight)) =
      squeezed (dropTrailingBlanks ((lines.map trimRight).dropWhile List.isEmpty)) := by
    rw [(collapseBlanks_eq _).2, dropWhile_squeezed, dropTrailingBlanks_squeezed]
  unfold docText normalForm
  rw [kept]
  simp only
  split
  · next blank =>
    rw [List.isEmpty_iff.mp blank]
    rfl
  · next text =>
    rw [intercalate_append_newline]
    rw [Ne, ← List.isEmpty_iff, isEmpty_squeezed]
    exact text

/-- A blank line in front and one behind make no difference. -/
theorem normalForm_framed (lines : List (List Char)) :
    normalForm ([] :: (lines ++ [[]])) = normalForm lines := by
  have trailing : ∀ lines : List (List Char), dropTrailingBlanks (lines ++ [[]]) =
      dropTrailingBlanks lines := by
    intro lines
    unfold dropTrailingBlanks
    rw [List.reverse_append]
    rfl
  have same : dropTrailingBlanks ((([] :: (lines ++ [[]])).map trimRight).dropWhile List.isEmpty) =
      dropTrailingBlanks ((lines.map trimRight).dropWhile List.isEmpty) := by
    have blank : trimRight [] = [] := rfl
    rw [List.map_cons, blank, dropWhile_blank, List.map_append, List.map_singleton, blank,
      dropTrailingBlanks_dropWhile, trailing, ← dropTrailingBlanks_dropWhile]
  unfold normalForm
  rw [same]

/-! ### Comments in front -/

/-- A line comment of a line. -/
def lineComment (line : List Char) : List Char :=
  '/' :: '/' :: ' ' :: line

/-- A block comment of some lines. -/
def blockComment (lines : List (List Char)) : List Char :=
  '/' :: '*' :: '\n' :: (lines.flatMap (· ++ ['\n']) ++ ['*', '/'])

theorem flatMap_breaks (lines : List (List Char)) :
    lines.flatMap (· ++ ['\n']) = ['\n'].intercalate (lines ++ [[]]) := by
  induction lines with
  | nil => rfl
  | cons line rest inductionHypothesis =>
    rw [List.flatMap_cons, inductionHypothesis, List.cons_append,
      List.intercalate_cons_of_ne_nil (List.append_ne_nil_of_right_ne_nil _ (List.cons_ne_nil _ _))]

theorem lines_lineComment (line : List Char) (first last : Nat) (ownLine : Bool) :
    Comment.lines ⟨lineComment line, first, last, ownLine⟩ = [line] :=
  rfl

theorem lines_blockComment {lines : List (List Char)} (free : ∀ line ∈ lines, '\n' ∉ line)
    (first last : Nat) (ownLine : Bool) :
    Comment.lines ⟨blockComment lines, first, last, ownLine⟩ = [] :: (lines ++ [[]]) := by
  have inner : ((blockComment lines).drop 2).take ((blockComment lines).length - 4) =
      '\n' :: lines.flatMap (· ++ ['\n']) := by
    have length : (blockComment lines).length - 4 =
        ('\n' :: lines.flatMap (· ++ ['\n'])).length := by
      simp only [blockComment, List.length_cons, List.length_append, List.length_nil]
      omega
    rw [length]
    exact List.take_left
  have whole : Comment.lines ⟨blockComment lines, first, last, ownLine⟩ =
      (((blockComment lines).drop 2).take ((blockComment lines).length - 4)).splitOn '\n' := rfl
  have joined :
      '\n' :: lines.flatMap (· ++ ['\n']) = ['\n'].intercalate ([] :: (lines ++ [[]])) := by
    rw [flatMap_breaks, List.intercalate_cons_of_ne_nil
      (List.append_ne_nil_of_right_ne_nil _ (List.cons_ne_nil _ _))]
    rfl
  rw [whole, inner, joined, List.splitOn_intercalate '\n' ?_ (List.cons_ne_nil _ _)]
  intro line member
  simp only [List.mem_cons, List.mem_append, List.not_mem_nil, or_false] at member
  obtain rfl | member | rfl := member
  · exact List.not_mem_nil
  · exact free line member
  · exact List.not_mem_nil

theorem blockLength_append {body : List Char} (free : ¬ ['*', '/'] <:+: body) (rest : List Char) :
    blockLength (body ++ '*' :: '/' :: rest) = some (body.length + 2) := by
  induction body with
  | nil => rfl
  | cons char body inductionHypothesis =>
    have freeBody : ¬ ['*', '/'] <:+: body := fun inside => free (List.infix_cons inside)
    have goesOn : ∀ tail, char = '*' → body ++ '*' :: '/' :: rest = '/' :: tail → False := by
      rintro tail rfl same
      cases body with
      | nil => simp at same
      | cons next body =>
        obtain ⟨rfl, -⟩ := List.cons.inj same
        exact free (List.prefix_append ['*', '/'] body).isInfix
    rw [List.cons_append, blockLength.eq_2 _ _ goesOn, inductionHypothesis freeBody,
      List.length_cons]
    simp only [Option.map_some, Nat.add_right_comm]

theorem endMark_infix {line rest : List Char} (inside : ['*', '/'] <:+: line ++ '\n' :: rest) :
    ['*', '/'] <:+: line ∨ ['*', '/'] <:+: rest := by
  induction line with
  | nil =>
    obtain front | inside := List.infix_cons_iff.mp inside
    · simp at front
    · exact Or.inr inside
  | cons char line inductionHypothesis =>
    obtain front | inside := List.infix_cons_iff.mp inside
    · obtain ⟨rfl, second⟩ := List.cons_prefix_cons.mp front
      cases line with
      | nil => simp at second
      | cons next line =>
        obtain ⟨rfl, -⟩ := List.cons_prefix_cons.mp second
        exact Or.inl (List.prefix_append ['*', '/'] line).isInfix
    · exact (inductionHypothesis inside).imp_left List.infix_cons

theorem endMark_lines {lines : List (List Char)} (free : ∀ line ∈ lines, ¬ ['*', '/'] <:+: line) :
    ¬ ['*', '/'] <:+: lines.flatMap (· ++ ['\n']) := by
  induction lines with
  | nil => simp
  | cons line rest inductionHypothesis =>
    rw [List.flatMap_cons, List.append_assoc, List.singleton_append]
    intro inside
    obtain inside | inside := endMark_infix inside
    · exact free line List.mem_cons_self inside
    · exact inductionHypothesis (fun line member => free line (List.mem_cons_of_mem _ member))
        inside

theorem count_lines {lines : List (List Char)} (free : ∀ line ∈ lines, '\n' ∉ line) :
    (lines.flatMap (· ++ ['\n'])).count '\n' = lines.length := by
  induction lines with
  | nil => rfl
  | cons line rest inductionHypothesis =>
    rw [List.flatMap_cons, List.count_append, List.count_append,
      List.count_eq_zero.mpr (free line List.mem_cons_self),
      inductionHypothesis fun line member => free line (List.mem_cons_of_mem _ member),
      List.length_cons]
    exact Nat.add_comm _ _

/-- A block comment in front of all tokens. -/
theorem arrange_blockComment (line : Nat) (text : List Char) (rest : List Lexeme) :
    Layout.arrange false 0 line (⟨.blockComment, text, line⟩ :: rest) =
      Layout.withComment ⟨text, line, line + Lexeme.lineBreaks ⟨.blockComment, text, line⟩,
        0 != line⟩
        (Layout.arrange false 0 (line + Lexeme.lineBreaks ⟨.blockComment, text, line⟩) rest) := by
  rw [Layout.arrange]
  simp only [Bool.and_false, Bool.false_and]
  rfl

/-- A line break in front of all tokens. -/
theorem arrange_newline_false (line : Nat) (rest : List Lexeme) :
    Layout.arrange false 0 line (⟨.newline, ['\n'], line⟩ :: rest) =
      Layout.arrange false 0 (line + 1) rest := by
  rw [Layout.arrange]
  rfl

/-- A line comment in front of all tokens. -/
theorem arrange_lineComment (line : Nat) (text : List Char) (rest : List Lexeme) :
    Layout.arrange false 0 line (⟨.lineComment, text, line⟩ :: rest) =
      Layout.withComment ⟨text, line, line, 0 != line⟩ (Layout.arrange false 0 line rest) := by
  rw [Layout.arrange]
  rfl

/-- The text takes up the first lines of a source with these comments, and with nothing else. -/
def Leads (text : List Char) (count : Nat) (comments : List Comment) : Prop :=
  ∀ rest found, lexemesFrom (1 + count) rest = .ok found → ∃ lexemes,
    lexemesFrom 1 (text ++ rest) = .ok lexemes ∧ Layout.arrange false 0 1 lexemes =
      (Layout.mk [] comments).append (Layout.arrange false 0 (1 + count) found)

theorem nextLexeme_blockComment {body : List Char} (free : ¬ ['*', '/'] <:+: body)
    (rest : List Char) :
    nextLexeme '/' ('*' :: (body ++ ['*', '/'] ++ rest)) =
      .ok (.blockComment, ('*' :: (body ++ ['*', '/'])).length) := by
  have closed : blockLength (body ++ ['*', '/'] ++ rest) = some (body.length + 2) := by
    rw [List.append_assoc]
    exact blockLength_append free rest
  rw [nextLexeme_eq_ok, List.length_cons, List.length_append]
  exact .blockComment rfl rfl closed

theorem nextLexeme_lineComment {line : List Char} (free : '\n' ∉ line) (rest : List Char) :
    nextLexeme '/' ('/' :: (line ++ '\n' :: rest)) = .ok (.lineComment, ('/' :: line).length) := by
  have run : runLength (fun char => decide (char ≠ '\n')) ('/' :: line ++ '\n' :: rest) =
      ('/' :: line).length := by
    refine runLength_append (fun char member => ?_) (fun char head => ?_)
    · rw [decide_eq_true_eq]
      rintro rfl
      obtain same | member := List.mem_cons.mp member
      · nomatch same
      · exact free member
    · obtain rfl := Option.some.inj head
      rfl
  rw [nextLexeme_eq_ok, ← run]
  exact .lineComment rfl rfl

/-- A lexeme is cut off the front of a source. -/
theorem lexemesFrom_lexeme {line : Nat} {shape : Shape} {first : Char} {text rest : List Char}
    {found : List Lexeme} (next : nextLexeme first (text ++ rest) = .ok (shape, text.length))
    (cut : lexemesFrom (line + Lexeme.lineBreaks ⟨shape, first :: text, line⟩) rest = .ok found) :
    lexemesFrom line (first :: (text ++ rest)) = .ok (⟨shape, first :: text, line⟩ :: found) := by
  rw [lexemesFrom_cons next, List.take_left, List.drop_left, cut]
  rfl

theorem leads_blockComment {lines : List (List Char)}
    (free : ∀ line ∈ lines, '\n' ∉ line ∧ ¬ ['*', '/'] <:+: line) :
    Leads (blockComment lines ++ ['\n']) (lines.length + 2)
      [⟨blockComment lines, 1, lines.length + 2, true⟩] := by
  intro rest found cut
  have breaks : (blockComment lines).count '\n' = lines.length + 1 := by
    simp only [blockComment, List.count_cons, List.count_append,
      count_lines fun line member => (free line member).1]
    rfl
  have body : ¬ ['*', '/'] <:+: '\n' :: lines.flatMap (· ++ ['\n']) := by
    intro inside
    obtain front | inside := List.infix_cons_iff.mp inside
    · simp at front
    · exact endMark_lines (fun line member => (free line member).2) inside
  have newline : lexemesFrom (1 + (lines.length + 1)) ('\n' :: rest) =
      .ok (⟨.newline, ['\n'], 1 + (lines.length + 1)⟩ :: found) := by
    have next : nextLexeme '\n' ([] ++ rest) = .ok (.newline, 0) := rfl
    exact lexemesFrom_lexeme next cut
  have lexemeBreaks : Lexeme.lineBreaks ⟨.blockComment, blockComment lines, 1⟩ =
      lines.length + 1 := breaks
  have whole : lexemesFrom 1 (blockComment lines ++ '\n' :: rest) =
      .ok (⟨.blockComment, blockComment lines, 1⟩ :: ⟨.newline, ['\n'], 1 + (lines.length + 1)⟩ ::
        found) := by
    refine lexemesFrom_lexeme (nextLexeme_blockComment body ('\n' :: rest)) ?_
    rw [← lexemeBreaks] at newline ⊢
    exact newline
  refine ⟨_, by rw [List.append_assoc, List.singleton_append]; exact whole, ?_⟩
  have below : 1 + (lines.length + 1) + 1 = 1 + (lines.length + 2) := rfl
  have last : 1 + (lines.length + 1) = lines.length + 2 := Nat.add_comm _ _
  rw [arrange_blockComment, lexemeBreaks, arrange_newline_false, below, last]
  rfl

/-- The line comments of some lines, the first of which stands on `line`. -/
def lineComments (line : Nat) : List (List Char) → List Comment
  | [] => []
  | text :: rest => ⟨lineComment text, line, line, true⟩ :: lineComments (line + 1) rest

theorem leads_lineComments {lines : List (List Char)} (free : ∀ line ∈ lines, '\n' ∉ line) :
    Leads (lines.flatMap fun line => lineComment line ++ ['\n']) lines.length
      (lineComments 1 lines) := by
  have each : ∀ start, 0 < start → ∀ rest found,
      lexemesFrom (start + lines.length) rest = .ok found → ∃ lexemes,
        lexemesFrom start ((lines.flatMap fun line => lineComment line ++ ['\n']) ++ rest) =
          .ok lexemes ∧
        Layout.arrange false 0 start lexemes = (Layout.mk [] (lineComments start lines)).append
          (Layout.arrange false 0 (start + lines.length) found) := by
    induction lines with
    | nil =>
      intro start _ rest found cut
      exact ⟨found, cut, rfl⟩
    | cons line lines inductionHypothesis =>
      intro start positive rest found cut
      have freeRest : ∀ line ∈ lines, '\n' ∉ line :=
        fun line member => free line (List.mem_cons_of_mem _ member)
      have shifted : start + (line :: lines).length = start + 1 + lines.length := by
        rw [List.length_cons]
        omega
      rw [shifted] at cut
      obtain ⟨lexemes, cutRest, arranged⟩ :=
        inductionHypothesis freeRest (start + 1) (Nat.succ_pos _) rest found cut
      have newline : lexemesFrom start ('\n' ::
          ((lines.flatMap fun line => lineComment line ++ ['\n']) ++ rest)) =
          .ok (⟨.newline, ['\n'], start⟩ :: lexemes) := by
        have next : ∀ rest, nextLexeme '\n' ([] ++ rest) = .ok (.newline, 0) := fun _ => rfl
        exact lexemesFrom_lexeme (next _) cutRest
      have blank : '\n' ∉ ' ' :: line := by
        rw [List.mem_cons, not_or]
        exact ⟨by decide, free line List.mem_cons_self⟩
      have next := nextLexeme_lineComment blank
        ((lines.flatMap fun line => lineComment line ++ ['\n']) ++ rest)
      have whole : lexemesFrom start ('/' :: ('/' :: ' ' :: line ++ '\n' ::
          ((lines.flatMap fun line => lineComment line ++ ['\n']) ++ rest))) =
          .ok (⟨.lineComment, lineComment line, start⟩ :: ⟨.newline, ['\n'], start⟩ :: lexemes) :=
        lexemesFrom_lexeme next newline
      have ownLine : (0 != start) = true := by
        rw [bne_iff_ne]
        omega
      refine ⟨⟨.lineComment, lineComment line, start⟩ :: ⟨.newline, ['\n'], start⟩ :: lexemes,
        ?_, ?_⟩
      · rw [List.flatMap_cons, List.append_assoc, List.append_assoc]
        exact whole
      · rw [arrange_lineComment, arrange_newline_false, arranged, shifted, ownLine]
        rfl
  exact each 1 Nat.one_pos

/-- The comments form one group, which ends on this line. -/
structure Heads (count : Nat) (comments : List Comment) : Prop where
  group : groupsFrom [] comments = closed comments
  last : ∀ comment ∈ comments, comment.last ≤ count
  ends : ∀ comment, comments.getLast? = some comment → comment.last = count

theorem heads_blockComment (text : List Char) (count : Nat) :
    Heads count [⟨text, 1, count, true⟩] where
  group := rfl
  last comment member := by rw [List.mem_singleton.mp member]
  ends comment last := by
    obtain rfl := Option.some.inj last
    rfl

theorem groupsFrom_lineComments {group : List Comment} {start : Nat}
    (near : ∀ comment, group.getLast? = some comment → start = comment.last + 1)
    (lines : List (List Char)) :
    groupsFrom group (lineComments start lines) = closed (group ++ lineComments start lines) := by
  induction lines generalizing group start with
  | nil =>
    rw [lineComments, List.append_nil]
    rfl
  | cons line rest inductionHypothesis =>
    have joins : Comment.joins ⟨lineComment line, start, start, true⟩ group = true := by
      cases last : group.getLast? with
      | none => rw [Comment.joins, last, Option.all_none, Bool.and_self]
      | some comment =>
        rw [Comment.joins, last, Option.all_some, Bool.true_and, decide_eq_true_eq,
          near comment last]
    rw [lineComments, groupsFrom_cons, if_pos joins, inductionHypothesis, List.append_assoc,
      List.singleton_append]
    intro comment last
    rw [List.getLast?_concat] at last
    rw [← Option.some.inj last]

theorem lineComments_last {start : Nat} {lines : List (List Char)} :
    (∀ comment ∈ lineComments start lines, comment.last < start + lines.length) ∧
      ∀ comment, (lineComments start lines).getLast? = some comment →
        comment.last + 1 = start + lines.length := by
  induction lines generalizing start with
  | nil => exact ⟨nofun, nofun⟩
  | cons line rest inductionHypothesis =>
    obtain ⟨within, ends⟩ := @inductionHypothesis (start + 1)
    have shifted : start + (line :: rest).length = start + 1 + rest.length := by
      rw [List.length_cons]
      omega
    rw [lineComments, shifted]
    refine ⟨fun comment member => ?_, fun comment last => ?_⟩
    · obtain rfl | member := List.mem_cons.mp member
      · exact Nat.lt_add_right _ (Nat.lt_succ_self start)
      · exact within comment member
    · rw [List.getLast?_cons] at last
      cases inner : (lineComments (start + 1) rest).getLast? with
      | some other =>
        rw [inner] at last
        obtain rfl := Option.some.inj last
        exact ends _ inner
      | none =>
        rw [inner] at last
        obtain rfl := Option.some.inj last
        cases rest with
        | nil => rfl
        | cons next rest => simp [lineComments] at inner

theorem heads_lineComments (lines : List (List Char)) :
    Heads lines.length (lineComments 1 lines) := by
  obtain ⟨within, ends⟩ : (∀ comment ∈ lineComments 1 lines, _) ∧ _ := lineComments_last
  refine ⟨?_, fun comment member => ?_, fun comment last => ?_⟩
  · have near : ∀ comment, ([] : List Comment).getLast? = some comment → 1 = comment.last + 1 :=
      nofun
    exact groupsFrom_lineComments near lines
  · have less := within comment member
    omega
  · have same := ends comment last
    omega

theorem text_lineComments (start : Nat) (lines : List (List Char)) :
    groupText (lineComments start lines) = normalForm lines := by
  have each : (lineComments start lines).flatMap Comment.lines = lines := by
    induction lines generalizing start with
    | nil => rfl
    | cons line rest inductionHypothesis =>
      rw [lineComments, List.flatMap_cons, lines_lineComment, inductionHypothesis,
        List.singleton_append]
  rw [groupText, each, docText_eq_normalForm]

theorem text_blockComment {lines : List (List Char)} (free : ∀ line ∈ lines, '\n' ∉ line)
    (first last : Nat) (ownLine : Bool) :
    groupText [⟨blockComment lines, first, last, ownLine⟩] = normalForm lines := by
  rw [groupText, List.flatMap_singleton, lines_blockComment free, docText_eq_normalForm,
    normalForm_framed]

/-! ### Documentation of the first line -/

theorem Heads.above {count : Nat} {comments : List Comment} (heads : Heads count comments) :
    (docsOf comments).above (1 + count) = groupText comments := by
  unfold docsOf
  rw [heads.group]
  cases last : comments.getLast? with
  | none =>
    obtain rfl := List.getLast?_eq_none_iff.mp last
    rfl
  | some comment =>
    have full : comments.isEmpty = false := by
      rw [List.isEmpty_eq_false_iff]
      rintro rfl
      simp at last
    rw [closed, if_neg (ne_true_of_eq_false full), List.map_singleton, last, Option.map_some,
      Option.getD_some, heads.ends comment last, Docs.above, List.reverse_singleton,
      List.find?_singleton, if_pos (beq_iff_eq.mpr (Nat.add_comm count 1))]
    rfl

/-- The documentation with a text above the first line. -/
def Docs.headed (docs : Docs) (text : String) : Docs :=
  [(0, text)] ++ docs

theorem Docs.headed_above_one {docs : Docs} (text : String)
    (counted : ∀ entry ∈ docs, 0 < entry.1) : (docs.headed text).above 1 = text :=
  Docs.above_append_left counted

theorem Docs.headed_above {docs : Docs} {line : Nat} (text : String) (below : 1 < line) :
    (docs.headed text).above line = docs.above line := by
  refine Docs.above_append_right fun entry member => ?_
  rw [List.mem_singleton.mp member]
  exact below

theorem Layout.Counted.docs {layout : Layout} (counted : layout.Counted) :
    ∀ entry ∈ docsOf layout.comments, 0 < entry.1 := by
  intro entry member
  obtain ⟨comment, inside, same⟩ := mem_docsOf member
  have bounds := counted.comments comment inside
  omega

/-- Comments in front document the first line and no other. -/
theorem agrees_headed {count : Nat} {comments : List Comment} {layout : Layout}
    (heads : Heads count comments) (counted : layout.Counted)
    (apart : ∀ comment ∈ layout.comments, comment.ownLine → 1 < comment.first) :
    ((docsOf layout.comments).headed (groupText comments)).Agrees count
      (docsOf (comments ++ layout.comments.map (Comment.moved count))) layout.tokens := by
  have docs : docsOf (comments ++ layout.comments.map (Comment.moved count)) =
      docsOf comments ++ Docs.moved count (docsOf layout.comments) := by
    rw [docsOf_append, docsOf_moved]
    intro comment member own previous before
    obtain ⟨original, inside, rfl⟩ := List.mem_map.mp member
    have first := apart original inside own
    have last := heads.last previous before
    simp only [Comment.moved]
    omega
  intro token member
  have positive := counted.tokens token member
  rw [docs]
  by_cases front : token.line = 1
  · rw [front, Docs.headed_above_one _ counted.docs, ← heads.above]
    refine Docs.above_append_left fun entry inside => ?_
    obtain ⟨original, within, rfl⟩ := List.mem_map.mp inside
    exact Nat.add_le_add_right (counted.docs original within) count
  · have below : 1 < token.line := by omega
    rw [Docs.headed_above _ below, Docs.above_append_right, Docs.above_moved]
    intro entry inside
    obtain ⟨comment, within, same⟩ := mem_docsOf inside
    have last := heads.last comment within
    omega

/-! ### Reading with a text above the first line -/

/-- The declaration with this documentation. -/
def Declaration.documented (doc : String) : Declaration → Declaration
  | .type declaration => .type { declaration with doc }
  | .value declaration => .value { declaration with doc }
  | .function declaration => .function { declaration with doc }

/-- Where no item is found, none is read. -/
theorem itemsUntil_nil {Item : Type} {closer : String} {unclosed : ReadFault}
    {item other : List Token → Except ReadFault (List Item × Nat)} {tokens : List Token}
    {used : Nat} (some : ∀ tokens own used, item tokens = .ok (own, used) → own ≠ [])
    (read : itemsUntil closer unclosed item tokens = .ok ([], used)) :
    itemsUntil closer unclosed other tokens = .ok ([], used) := by
  rw [itemsUntil_eq_ok] at read ⊢
  generalize none : ([] : List Item) = found at read
  induction read with
  | closed closes => exact .closed closes
  | separator goesOn ends _ others => exact .separator goesOn ends (others none)
  | item _ _ readOwn => exact absurd (List.append_eq_nil_iff.mp none.symm).1 (some _ _ _ readOwn)

theorem typeDeclaration_nil {docs other : Docs} {keyword : Token} {rest : List Token} {used : Nat}
    (read : typeDeclaration docs keyword rest = .ok ([], used)) :
    typeDeclaration other keyword rest = .ok ([], used) := by
  obtain ⟨opener, tail, group, rfl, opens, readGroup, rfl⟩ | ⟨-, spec, -, none⟩ :=
    typeDeclaration_eq_ok read
  · have empty : typeGroup other (other.above keyword.line) tail = .ok ([], group) := by
      refine itemsUntil_nil (fun tokens own used readOwn => ?_) readGroup
      obtain ⟨spec, -, rfl⟩ := single_eq_ok.mp readOwn
      exact List.cons_ne_nil _ _
    rw [typeDeclaration, nextIs_cons, if_pos opens, List.drop_one, List.tail_cons, empty]
    rfl
  · exact absurd none.symm (List.cons_ne_nil _ _)

theorem topLevel_nil {docs other : Docs} {keyword : Token} {rest : List Token} {used : Nat}
    (read : topLevel docs keyword rest = .ok ([], used)) :
    topLevel other keyword rest = .ok ([], used) := by
  obtain ⟨kind, form⟩ := topForm_of_topLevel read
  generalize none : ([] : List Declaration) = found at form
  cases form with
  | package text named nameKind => exact TopForm.read kind (.package text named nameKind)
  | importGroup text opened skip => exact TopForm.read kind (.importGroup text opened skip)
  | importLine text unopened => exact TopForm.read kind (.importLine text unopened)
  | type text readType =>
    obtain rfl := List.map_eq_nil_iff.mp none.symm
    exact TopForm.read kind (.type text (typeDeclaration_nil readType))
  | value valueKeyword text readValue => cases none
  | function text readFunction => cases none

theorem declarations_nil {docs : Docs} {tokens : List Token}
    (read : declarations docs tokens = .ok []) (other : Docs) :
    declarations other tokens = .ok [] := by
  rw [declarations_eq_ok] at read ⊢
  generalize none : ([] : List Declaration) = found at read
  induction read with
  | ended => exact .ended
  | separator semicolon _ others => exact .separator semicolon (others none)
  | topLevel starts readOwn separated _ others =>
    obtain ⟨rfl, rfl⟩ := List.append_eq_nil_iff.mp none.symm
    exact .topLevel starts (topLevel_nil readOwn) separated (others rfl)

theorem typeSpec_documented {doc groupDoc : String} {tokens : List Token} {spec : TypeDeclaration}
    {used : Nat} (read : typeSpec doc groupDoc tokens = .ok (spec, used)) (other : String) :
    typeSpec other groupDoc tokens = .ok ({ spec with doc := other }, used) := by
  simp only [typeSpec, bind_eq_ok, pure_eq_ok, Prod.exists, Prod.mk.injEq] at read ⊢
  obtain ⟨name, named, parameters, readParameters, fields, underlying, bodyUsed, readBody, rfl,
    rfl⟩ := read
  exact ⟨name, named, parameters, readParameters, fields, underlying, bodyUsed, readBody, rfl, rfl⟩

theorem valueDeclaration_documented {docs : Docs} {keyword : ValueKeyword} {line used : Nat}
    {tokens : List Token} {found : ValueDeclaration}
    (read : valueDeclaration docs keyword line tokens = .ok (found, used)) (other : Docs) :
    valueDeclaration other keyword line tokens =
      .ok ({ found with doc := other.above line }, used) := by
  simp only [valueDeclaration, bind_eq_ok, pure_eq_ok, Prod.exists, Prod.mk.injEq] at read ⊢
  obtain ⟨specs, specsUsed, readSpecs, rfl, rfl⟩ := read
  exact ⟨specs, specsUsed, readSpecs, rfl, rfl⟩

theorem functionDeclaration_documented {docs : Docs} {keyword : Token} {tokens : List Token}
    {found : FunctionDeclaration} {used : Nat}
    (read : functionDeclaration docs keyword tokens = .ok (found, used)) (other : Docs) :
    functionDeclaration other keyword tokens =
      .ok ({ found with doc := other.above keyword.line }, used) := by
  simp only [functionDeclaration, bind_eq_ok, pure_eq_ok, Prod.exists, Prod.mk.injEq] at read ⊢
  obtain ⟨receiverText, receiverUsed, readReceiver, name, named, typeParameters,
    readTypeParameters, parameters, readParameters, results, readResults, body, readBody, rfl,
    rfl⟩ := read
  exact ⟨receiverText, receiverUsed, readReceiver, name, named, typeParameters,
    readTypeParameters, parameters, readParameters, results, readResults, body, readBody, rfl, rfl⟩

/-- A declaration outside a group of types takes its documentation from the line of its keyword,
and nothing else depends on the documentation. -/
theorem topLevel_documented {docs : Docs} {keyword : Token} {rest : List Token}
    {own : List Declaration} {used : Nat}
    (declares : keyword.text ∈ ["func", "type", "const", "var"])
    (single : keyword.text = "type" → nextIs "(" rest = false)
    (read : topLevel docs keyword rest = .ok (own, used)) (other : Docs) :
    ∃ declaration, own = [declaration] ∧ topLevel other keyword rest =
      .ok ([declaration.documented (other.above keyword.line)], used) := by
  obtain ⟨kind, form⟩ := topForm_of_topLevel read
  cases form with
  | package text named nameKind => simp [text] at declares
  | importGroup text opened skip => simp [text] at declares
  | importLine text unopened => simp [text] at declares
  | type text readType =>
    obtain ⟨opener, tail, group, rfl, opens, -⟩ | ⟨alone, spec, readSpec, rfl⟩ :=
      typeDeclaration_eq_ok readType
    · rw [nextIs_cons, opens] at single
      nomatch single text
    · have readOther := typeSpec_documented readSpec (other.above keyword.line)
      exact ⟨_, rfl, TopForm.read kind (.type text (typeDeclaration_alone alone readOther))⟩
  | value valueKeyword text readValue =>
    have readOther := valueDeclaration_documented readValue other
    exact ⟨_, rfl, TopForm.read kind (.value valueKeyword text readOther)⟩
  | function text readFunction =>
    have readOther := functionDeclaration_documented readFunction other
    exact ⟨_, rfl, TopForm.read kind (.function text readOther)⟩

theorem declarations_documented {docs : Docs} {keyword : Token} {rest : List Token}
    {declaration : Declaration} (kind : keyword.kind = .keyword)
    (declares : keyword.text ∈ ["func", "type", "const", "var"])
    (single : keyword.text = "type" → nextIs "(" rest = false)
    (read : declarations docs (keyword :: rest) = .ok [declaration]) (other : Docs) :
    declarations other (keyword :: rest) =
      .ok [declaration.documented (other.above keyword.line)] := by
  rw [declarations_eq_ok] at read ⊢
  generalize only : [declaration] = found at read
  cases read with
  | separator semicolon _ =>
    rw [kind] at semicolon
    nomatch semicolon
  | topLevel starts readOwn separated behind =>
    obtain ⟨first, rfl, readOther⟩ := topLevel_documented declares single readOwn other
    obtain ⟨rfl, rfl⟩ := List.cons.inj only
    rw [← declarations_eq_ok] at behind
    exact .topLevel starts readOther separated
      (declarations_eq_ok.mp (declarations_nil behind other))

/-! ### A declaration on the first line -/

/-- Behind a token, no comment on its line stands on a line of its own. -/
theorem Layout.arrange_sameLine {ends : Bool} {line : Nat} {lexemes : List Lexeme}
    (follow : Follow line lexemes) :
    ∀ comment ∈ (arrange ends line line lexemes).comments, comment.ownLine →
      line < comment.first := by
  induction lexemes generalizing ends with
  | nil =>
    intro comment member
    rw [arrange, comments_endingStatement] at member
    exact absurd member List.not_mem_nil
  | cons lexeme rest inductionHypothesis =>
    obtain ⟨rfl, followRest⟩ := follow
    have later : ∀ (ends : Bool) (tokenLine : Nat),
        tokenLine = lexeme.line ∨ 0 < lexeme.lineBreaks →
        ∀ comment ∈ (arrange ends tokenLine (lexeme.line + lexeme.lineBreaks) rest).comments,
          comment.ownLine → lexeme.line < comment.first := by
      intro ends tokenLine either comment member own
      by_cases breaks : lexeme.lineBreaks = 0
      · obtain rfl := either.resolve_right (by omega)
        rw [breaks, Nat.add_zero] at member followRest
        exact inductionHypothesis followRest comment member own
      · have bounds := (arrange_within followRest).comments comment member
        omega
    have behind : ∀ (text : List Char) (last : Nat) (layout : Layout),
        (∀ comment ∈ layout.comments, comment.ownLine → lexeme.line < comment.first) →
        ∀ comment ∈ (withComment ⟨text, lexeme.line, last, lexeme.line != lexeme.line⟩
          layout).comments, comment.ownLine → lexeme.line < comment.first := by
      intro text last layout each comment member own
      obtain rfl | member := List.mem_cons.mp member
      · simp at own
      · exact each comment member own
    rw [arrange]
    cases lexeme.shape with
    | blank => exact later ends lexeme.line (Or.inl rfl)
    | newline =>
      rw [comments_endingStatement]
      exact later false lexeme.line (Or.inl rfl)
    | lineComment => exact behind _ _ _ (later ends lexeme.line (Or.inl rfl))
    | blockComment =>
      refine behind _ _ _ ?_
      rw [comments_endingStatement]
      exact later _ lexeme.line (Or.inl rfl)
    | token kind => exact later _ _ (by omega)

/-- A declaration that is read from a text and starts with its keyword, in front of everything
else: a function, constants, variables, or a type outside a group. -/
structure Stands (text : String) (declaration : Declaration) : Prop where
  keyword : ∃ word ∈ ["func", "type", "const", "var"], ∃ rest,
    text.toList = word.toList ++ rest ∧ Apart rest
  read : readSource text = .ok [declaration]
  single : ∀ layout first rest, layoutOf text = .ok layout → layout.tokens = first :: rest →
    first.text = "type" → nextIs "(" rest = false

/-- The keyword is the first token, on the first line, and the comments behind it on that line do
not stand on a line of their own. -/
theorem Stands.layout {text : String} {declaration : Declaration}
    (stands : Stands text declaration) :
    ∃ layout first rest, layoutOf text = .ok layout ∧ layout.tokens = first :: rest ∧
      first.kind = .keyword ∧ first.text ∈ ["func", "type", "const", "var"] ∧ first.line = 1 ∧
      (∀ comment ∈ layout.comments, comment.ownLine → 1 < comment.first) ∧
      declarations (docsOf layout.comments) layout.tokens = .ok [declaration] := by
  obtain ⟨layout, laid, read⟩ := readSource_eq_ok.mp stands.read
  obtain ⟨word, member, behind, whole, apart⟩ := stands.keyword
  have reserved : word ∈ keywords :=
    (by decide : ∀ word ∈ ["func", "type", "const", "var"], word ∈ keywords) word member
  obtain ⟨first, body, spelled, next⟩ := nextLexeme_keyword reserved apart
  obtain ⟨lexemes, cut, rfl⟩ := layoutOf_eq_ok.mp laid
  rw [whole, spelled, List.cons_append, lexemesFrom_cons next, List.take_left,
    List.drop_left] at cut
  obtain ⟨found, cutBehind, rfl⟩ := map_eq_ok.mp cut
  refine ⟨_, ⟨.keyword, String.ofList (first :: body), 1⟩, _, laid, rfl, rfl, ?_, rfl, ?_, read⟩
  · rw [← spelled, String.ofList_toList]
    exact member
  · exact Layout.arrange_sameLine (follow_of_lexemesFrom cutBehind)

/-! ### Both styles -/

theorem Declaration.moved_moved (first second : Nat) (declaration : Declaration) :
    (declaration.moved first).moved second = declaration.moved (first + second) := by
  cases declaration with
  | type declaration => exact congrArg _ (congrArg _ (Nat.add_assoc _ _ _))
  | value declaration => exact congrArg _ (congrArg _ (Nat.add_assoc _ _ _))
  | function declaration => exact congrArg _ (congrArg _ (Nat.add_assoc _ _ _))

theorem layoutOf_led {lead : List Char} {count : Nat} {comments : List Comment} {text : String}
    {layout : Layout} (leads : Leads lead count comments) (laid : layoutOf text = .ok layout) :
    layoutOf (String.ofList lead ++ text) = .ok ⟨layout.tokens.map (Token.moved count),
      comments ++ layout.comments.map (Comment.moved count)⟩ := by
  obtain ⟨found, cut, rfl⟩ := layoutOf_eq_ok.mp laid
  have moved : lexemesFrom (1 + count) text.toList = .ok (found.map (Lexeme.moved count)) := by
    rw [lexemesFrom_moved, cut]
    rfl
  obtain ⟨lexemes, whole, arranged⟩ := leads text.toList _ moved
  have below : 0 + count < 1 + count := Nat.add_lt_add_right Nat.zero_lt_one _
  refine layoutOf_eq_ok.mpr ⟨lexemes, ?_, ?_⟩
  · rw [String.toList_append, String.toList_ofList, whole]
  · rw [arranged, Layout.arrange_tokenLine (follow_of_lexemesFrom moved) (by omega) below,
      Layout.arrange_moved]
    rfl

/-- Comments in front give the declaration their text and move it below them. -/
theorem readSource_led {lead : List Char} {count : Nat} {comments : List Comment} {text : String}
    {declaration : Declaration} (leads : Leads lead count comments) (heads : Heads count comments)
    (stands : Stands text declaration) :
    readSource (String.ofList lead ++ text) =
      .ok [(declaration.documented (groupText comments)).moved count] := by
  obtain ⟨layout, first, rest, laid, tokens, kind, declares, line, apart, read⟩ := stands.layout
  have counted := counted_of_layoutOf laid
  have single := stands.single layout first rest laid tokens
  rw [readSource_eq_ok]
  refine ⟨_, layoutOf_led leads laid, ?_⟩
  simp only
  rw [declarations_moved (agrees_headed heads counted apart), tokens]
  rw [tokens] at read
  rw [declarations_documented kind declares single read, line,
    Docs.headed_above_one _ counted.docs]
  rfl

/-- The package clause and an empty line move everything two lines down. -/
theorem readSource_package (text : String) :
    readSource ("package p\n\n" ++ text) = followedBy [] 2 (readSource text) := by
  have laid : layoutOf "package p\n\n" =
      .ok ⟨[⟨.keyword, "package", 1⟩, ⟨.ident, "p", 1⟩, .terminator 1], []⟩ :=
    eq_ok_of_toOption (by decide +kernel)
  have read : readSource "package p\n\n" = .ok [] := eq_ok_of_toOption (by decide +kernel)
  have advance : lineAdvance "package p\n\n" = 2 := by decide +kernel
  have semicolon : ∀ token, some (Token.terminator 1) = some token → token.kind = .semicolon := by
    rintro token ⟨⟩
    rfl
  rw [readSource_followed laid read (by decide +kernel) semicolon (by decide +kernel), advance]

/-- A source whose declaration has the lines above it in one block comment. -/
def blockCommented (lines : List (List Char)) (text : String) : String :=
  "package p\n\n" ++ (String.ofList (blockComment lines ++ ['\n']) ++ text)

/-- A source whose declaration has the lines above it in one line comment each. -/
def lineCommented (lines : List (List Char)) (text : String) : String :=
  "package p\n\n" ++ (String.ofList (lines.flatMap fun line => lineComment line ++ ['\n']) ++ text)

theorem Declaration.doc_documented (doc : String) (offset : Nat) (declaration : Declaration) :
    ((declaration.documented doc).moved offset).doc = doc := by
  cases declaration with
  | type declaration => rfl
  | value declaration => rfl
  | function declaration => rfl

end GoApiDoc.Go

namespace GoApiDoc

open Go

/-- What a directive says, apart from the declaration that carries it: the kind, the component, the
body, the comment and the name of the parameter. -/
def Directive.content (directive : Directive) :
    DirectiveKind × Option String × String × String × Option Text :=
  (directive.kind, directive.name, directive.body, directive.comment, directive.parameterName)

/-- What is taken from the documentation of a declaration: the content of its directive, if it
carries one, or the words of the fault. -/
def extracted (declaration : Declaration) :
    Except String (Option (DirectiveKind × Option String × String × String × Option Text)) :=
  match extractDirective declaration with
  | .error fault => .error fault.message
  | .ok directive => .ok (directive.map Directive.content)

/-- A directive does not depend on the line of its declaration. -/
theorem extracted_moved (offset : Nat) (declaration : Declaration) :
    extracted (declaration.moved offset) = extracted declaration := by
  unfold extracted
  cases declaration with
  | type declaration =>
    simp only [Declaration.moved, extractDirective, typeDirective, TypeDeclaration.moved]
    split
    · rfl
    · rfl
  | function declaration =>
    simp only [Declaration.moved, extractDirective, functionDirective, FunctionDeclaration.moved,
      List.findSome?]
    cases bodyAfterTag .info (cleanComment declaration.doc) with
    | some body => rfl
    | none =>
      cases bodyAfterTag .path (cleanComment declaration.doc) with
      | some body => rfl
      | none => rfl
  | value declaration =>
    obtain ⟨keyword, doc, specs, line⟩ := declaration
    simp only [Declaration.moved, extractDirective, valueDirective, ValueDeclaration.moved]
    cases bodyAfterTag .parameter (cleanComment doc) with
    | none => rfl
    | some body =>
      -- One name with one text is looked into; every other form is refused as it stands.
      obtain _ | ⟨⟨_ | ⟨name, _ | _⟩, _ | ⟨literal, _ | _⟩⟩, _ | _⟩ := specs
      all_goals try rfl
      simp only
      cases unquote literal with
      | error fault => rfl
      | ok parameterName => rfl

/-- The two comment styles carry the same directive. Above a declaration, a block comment of some
lines and line comments of the same lines are both accepted and give the declaration the normal form
of the lines as its documentation; the declarations differ in their lines only, and the directive
that is extracted from them, or the fault, is the same. -/
theorem readSource_comment_styles (lines : List (List Char)) (text : String)
    (declaration : Declaration)
    (free : ∀ line ∈ lines, '\n' ∉ line ∧ ¬ ['*', '/'] <:+: line)
    (stands : Stands text declaration) :
    ∃ block line, readSource (blockCommented lines text) = .ok [block] ∧
      readSource (lineCommented lines text) = .ok [line] ∧
      block = (declaration.documented (normalForm lines)).moved (lines.length + 4) ∧
      line = (declaration.documented (normalForm lines)).moved (lines.length + 2) ∧
      block.doc = normalForm lines ∧ line.doc = normalForm lines ∧
      extracted block = extracted line := by
  have breaks := fun line member => (free line member).1
  refine ⟨_, _, ?_, ?_, rfl, rfl, Declaration.doc_documented _ _ _,
    Declaration.doc_documented _ _ _, ?_⟩
  · have read := readSource_led (leads_blockComment free) (heads_blockComment _ _) stands
    rw [text_blockComment breaks] at read
    rw [blockCommented, readSource_package, read, followedBy, List.nil_append, List.map_singleton,
      Declaration.moved_moved]
  · have read := readSource_led (leads_lineComments breaks) (heads_lineComments lines) stands
    rw [text_lineComments] at read
    rw [lineCommented, readSource_package, read, followedBy, List.nil_append, List.map_singleton,
      Declaration.moved_moved]
  · rw [extracted_moved, extracted_moved]

/-- The statement at a parameter with a run of blank lines and blanks at the end of a line. -/
theorem readSource_comment_styles_parameter :
    let lines := ["gopenapi:parameter \t".toList, [], [], "in: query".toList]
    let text := "const limit = \"limit\"\n"
    let doc := "gopenapi:parameter\n\nin: query\n"
    let found (line : Nat) : Declaration :=
      .value ⟨.const, doc, [⟨["limit"], ["\"limit\""]⟩], line⟩
    readSource (blockCommented lines text) = .ok [found 9] ∧
      readSource (lineCommented lines text) = .ok [found 7] ∧ normalForm lines = doc ∧
      extracted (found 9) = extracted (found 7) ∧ extracted (found 7) =
        .ok (some (.parameter, some "limit", "\n\nin: query", "gopenapi:parameter\n\nin: query",
          some ↑"limit")) := by
  intro lines text doc found
  have stands : Stands text (.value ⟨.const, "", [⟨["limit"], ["\"limit\""]⟩], 1⟩) := by
    refine ⟨⟨"const", by decide, " limit = \"limit\"\n".toList, by decide +kernel, ?_⟩,
      eq_ok_of_toOption (by decide +kernel), ?_⟩
    · rintro char ⟨⟩
      rfl
    · intro layout first rest laid tokens type
      have known : layoutOf text = .ok ⟨[⟨.keyword, "const", 1⟩, ⟨.ident, "limit", 1⟩,
          ⟨.op, "=", 1⟩, ⟨.string, "\"limit\"", 1⟩, .terminator 1], []⟩ :=
        eq_ok_of_toOption (by decide +kernel)
      obtain rfl := Except.ok.inj (laid.symm.trans known)
      obtain ⟨rfl, -⟩ := List.cons.inj tokens
      exact absurd type (by decide)
  have normal : normalForm lines = doc := by decide +kernel
  obtain ⟨block, line, readBlock, readLine, rfl, rfl, -, -, same⟩ :=
    readSource_comment_styles lines text _ (by decide +kernel) stands
  rw [normal] at readBlock readLine same
  have directive : extractDirective (found 7) = .ok (some ⟨.parameter, found 7, some "limit",
      "\n\nin: query", "gopenapi:parameter\n\nin: query", some ↑"limit"⟩) :=
    eq_ok_of_toOption (by decide +kernel)
  exact ⟨readBlock, readLine, normal, same, by rw [extracted, directive]; rfl⟩

end GoApiDoc
