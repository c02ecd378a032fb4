/-
This file says that reading is local. A source that ends with two line breaks, and whose last
token, if it has any, is a semicolon, is read apart from whatever is put behind it: the
declarations of the whole are those of the two parts one after the other, the second ones on lines
as many further down as the first part moves the line count on, and a fault of the second part is
the fault of the whole. The initialisers of the first part must have come to an end, as an open
bracket among them would take the second part along.

Three things could tie the parts together. The cut into lexemes and the layout do not, since every
lexeme ends at a line break as it ends at the end. The documentation does not, since the empty line
keeps the comments of the parts in different groups and no group stands above a line of the other
part. The reader does not, since it does not look past the semicolon.
-/

import GoApiDoc.Proofs.Lookahead

namespace GoApiDoc.Go

/-! ### Documentation -/

theorem mem_of_mem_groupsFrom {group comments found : List Comment} {comment : Comment}
    (member : found ∈ groupsFrom group comments) (inside : comment ∈ found) :
    comment ∈ group ++ comments := by
  induction comments generalizing group with
  | nil =>
    rw [List.append_nil, ← (mem_closed member).1]
    exact inside
  | cons next rest inductionHypothesis =>
    rw [groupsFrom_cons] at member
    split at member
    · have later := inductionHypothesis member
      rw [List.append_assoc] at later
      exact later
    · obtain member | member := List.mem_append.mp member
      · rw [← (mem_closed member).1]
        exact List.mem_append_left _ inside
      · refine List.mem_append_right group ?_
        obtain first | later := List.mem_append.mp (inductionHypothesis member)
        · exact List.mem_cons.mpr (Or.inl (mem_opened first).1)
        · exact List.mem_cons_of_mem next later

/-- The documentation is kept under the last lines of comments. -/
theorem mem_docsOf {comments : List Comment} {entry : Nat × String}
    (member : entry ∈ docsOf comments) : ∃ comment ∈ comments, entry.1 = comment.last := by
  obtain ⟨group, inside, rfl⟩ := List.mem_map.mp member
  obtain ⟨last, ends⟩ := Option.isSome_iff_exists.mp
    (List.getLast?_isSome.mpr (groupsFrom_ne_nil inside))
  refine ⟨last, mem_of_mem_groupsFrom inside (List.mem_of_getLast? ends), ?_⟩
  simp only [ends, Option.map_some, Option.getD_some]

theorem docsOf_append {first second : List Comment}
    (apart : ∀ comment ∈ second, comment.ownLine → ∀ previous ∈ first,
      previous.last + 1 < comment.first) :
    docsOf (first ++ second) = docsOf first ++ docsOf second := by
  unfold docsOf
  rw [groupsFrom_append apart, List.map_append]

theorem Docs.above_append_left {first second : Docs} {line : Nat}
    (later : ∀ entry ∈ second, line ≤ entry.1) :
    (first ++ second).above line = first.above line := by
  have none : second.reverse.find? (fun entry => entry.1 + 1 == line) = none := by
    rw [List.find?_eq_none]
    intro entry member
    have le := later entry (List.mem_reverse.mp member)
    rw [beq_iff_eq]
    omega
  unfold Docs.above
  rw [List.reverse_append, List.find?_append, none, Option.none_or]

theorem Docs.above_append_right {first second : Docs} {line : Nat}
    (earlier : ∀ entry ∈ first, entry.1 + 1 < line) :
    (first ++ second).above line = second.above line := by
  have none : first.reverse.find? (fun entry => entry.1 + 1 == line) = none := by
    rw [List.find?_eq_none]
    intro entry member
    have less := earlier entry (List.mem_reverse.mp member)
    rw [beq_iff_eq]
    omega
  unfold Docs.above
  rw [List.reverse_append, List.find?_append, none, Option.or_none]

/-! ### Layouts -/

/-- A line break at the end ends a statement as the end does. -/
theorem Layout.arrange_newline {ends : Bool} {tokenLine line last : Nat} {lexemes : List Lexeme}
    (follow : Follow line (lexemes ++ [⟨.newline, ['\n'], last⟩])) :
    arrange ends tokenLine line (lexemes ++ [⟨.newline, ['\n'], last⟩]) =
      arrange ends tokenLine line lexemes := by
  induction lexemes generalizing ends tokenLine line with
  | nil =>
    obtain ⟨rfl, -⟩ := follow
    rfl
  | cons lexeme rest inductionHypothesis =>
    obtain ⟨rfl, followRest⟩ := follow
    rw [List.cons_append, arrange, arrange]
    simp only [inductionHypothesis followRest]

/-- By how many lines a source moves the line count on. -/
def lineAdvance (source : String) : Nat :=
  match lexemes source.toList with
  | .error _ => 0
  | .ok found => lineBreaks found

/-- The tokens and comments of a source, or the fault, as many lines further down and behind those
of another source. -/
def Layout.followed (first : Layout) (offset : Nat) :
    Except SourceFault Layout → Except SourceFault Layout
  | .error fault => .error (fault.moved offset)
  | .ok second => .ok (first.append (second.moved offset))

/-- What is known of a source that ends with a line break. -/
theorem layoutOf_break {first : String} {layout : Layout} (laid : layoutOf first = .ok layout)
    (breaks : ['\n'] <:+ first.toList) :
    ∃ text before last, first.toList = text ++ ['\n'] ∧
      lexemesFrom 1 (text ++ ['\n']) = .ok (before ++ [⟨.newline, ['\n'], last⟩]) ∧
      Follow 1 (before ++ [⟨.newline, ['\n'], last⟩]) ∧
      layout = Layout.arrange false 0 1 (before ++ [⟨.newline, ['\n'], last⟩]) ∧
      lineAdvance first = lineBreaks (before ++ [⟨.newline, ['\n'], last⟩]) := by
  obtain ⟨text, whole⟩ := breaks
  obtain ⟨found, cut, rfl⟩ := layoutOf_eq_ok.mp laid
  have advance : lineAdvance first = lineBreaks found := by rw [lineAdvance, lexemes, cut]
  rw [← whole] at cut ⊢
  obtain ⟨before, last, rfl⟩ := lexemesFrom_break cut
  exact ⟨text, before, last, rfl, cut, follow_of_lexemesFrom cut, rfl, advance⟩

/-- Behind a line break a source is laid out as by itself. -/
theorem layoutOf_append {first : String} {layout : Layout} (laid : layoutOf first = .ok layout)
    (breaks : ['\n'] <:+ first.toList) (second : String) :
    layoutOf (first ++ second) = layout.followed (lineAdvance first) (layoutOf second) := by
  obtain ⟨text, before, last, whole, cut, follow, rfl, advance⟩ := layoutOf_break laid breaks
  obtain ⟨reached, less, arranged⟩ : ∃ reached < 1 + lineBreaks _, ∀ after,
      Layout.arrange false 0 1 _ = _ := Layout.arrange_append follow (Nat.zero_le 1)
  have joined : (first ++ second).toList = text ++ '\n' :: second.toList := by
    rw [String.toList_append, whole, List.append_assoc, List.singleton_append]
  have rest := lexemesFrom_append cut second.toList
  rw [← advance, lexemesFrom_moved] at rest
  rw [← advance] at less arranged
  unfold layoutOf lexemes
  rw [joined, rest]
  cases others : lexemesFrom 1 second.toList with
  | error fault => rfl
  | ok found =>
    have cutOthers : lexemesFrom (1 + lineAdvance first) second.toList =
        .ok (found.map (Lexeme.moved (lineAdvance first))) := by
      rw [lexemesFrom_moved, others]
      rfl
    have behind := arranged (found.map (Lexeme.moved (lineAdvance first)))
    rw [Layout.arrange_tokenLine (follow_of_lexemesFrom cutOthers) less
      (Nat.add_lt_add_right Nat.zero_lt_one _), Layout.arrange_moved] at behind
    simp only [movedCut, Except.map, Layout.followed, Layout.ofLexemes, List.append_assoc,
      List.cons_append, List.nil_append] at behind ⊢
    rw [behind]

/-- The tokens start and the comments end on lines before this one. -/
structure Layout.Above (line : Nat) (layout : Layout) : Prop where
  tokens : ∀ token ∈ layout.tokens, token.line < line
  comments : ∀ comment ∈ layout.comments, comment.last < line

/-- The lines are counted from one on. -/
structure Layout.Counted (layout : Layout) : Prop where
  tokens : ∀ token ∈ layout.tokens, 0 < token.line
  comments : ∀ comment ∈ layout.comments, 0 < comment.first ∧ comment.first ≤ comment.last

theorem above_of_layoutOf {first : String} {layout : Layout} (laid : layoutOf first = .ok layout)
    (breaks : ['\n', '\n'] <:+ first.toList) : layout.Above (lineAdvance first) := by
  obtain ⟨text, whole⟩ := breaks
  obtain ⟨found, cut, rfl⟩ := layoutOf_eq_ok.mp laid
  have advance : lineAdvance first = lineBreaks found := by rw [lineAdvance, lexemes, cut]
  rw [← whole] at cut
  obtain ⟨before, last, rfl⟩ := lexemesFrom_two_breaks cut
  have joined : before ++ [⟨.newline, ['\n'], last⟩, ⟨.newline, ['\n'], last + 1⟩] =
      (before ++ [⟨.newline, ['\n'], last⟩]) ++ [⟨.newline, ['\n'], last + 1⟩] := by
    rw [List.append_assoc, List.singleton_append]
  have follow := follow_of_lexemesFrom cut
  rw [joined] at follow advance ⊢
  have lines : lineAdvance first = lineBreaks before + 2 := by
    rw [advance, lineBreaks_append, lineBreaks_append]
    rfl
  have followFront := (follow_append.mp follow).1
  have followBefore := (follow_append.mp followFront).1
  rw [Layout.arrange_newline follow, Layout.arrange_newline followFront, lines]
  refine ⟨fun token member => ?_, fun comment member => ?_⟩
  · have bound := (Layout.arrange_within followBefore).tokens token member
    omega
  · have bound := (Layout.arrange_within followBefore).comments comment member
    omega

theorem counted_of_layoutOf {source : String} {layout : Layout}
    (laid : layoutOf source = .ok layout) : layout.Counted := by
  obtain ⟨found, cut, rfl⟩ := layoutOf_eq_ok.mp laid
  have within : (Layout.arrange false 0 1 found).Within 1 (1 + lineBreaks found) :=
    Layout.arrange_within (follow_of_lexemesFrom cut)
  refine ⟨fun token member => (within.tokens token member).1, fun comment member => ?_⟩
  have bound := within.comments comment member
  exact ⟨bound.1, bound.2.1⟩

/-! ### Both parts -/

/-- The tokens from which the reader reads initialisers, one list for each time it does. -/
def Layout.initialiserRuns (layout : Layout) : List (List Token) :=
  (declarationStarts (docsOf layout.comments) layout.tokens).flatMap topLevelRuns

/-- What was read of a source, or the fault, as many lines further down and behind what was read
before it. -/
def followedBy (found : List Declaration) (offset : Nat) :
    Except SourceFault (List Declaration) → Except SourceFault (List Declaration)
  | .error fault => .error (fault.moved offset)
  | .ok others => .ok (found ++ others.map (Declaration.moved offset))

/-- The comments of the parts are grouped apart. -/
theorem docsOf_followed {layout other : Layout} {offset : Nat} (above : layout.Above offset)
    (counted : other.Counted) :
    docsOf (layout.comments ++ other.comments.map (Comment.moved offset)) =
      docsOf layout.comments ++ Docs.moved offset (docsOf other.comments) := by
  rw [docsOf_append, docsOf_moved]
  intro comment member _ previous before
  obtain ⟨original, inside, rfl⟩ := List.mem_map.mp member
  have first := above.comments previous before
  have second := counted.comments original inside
  simp only [Comment.moved]
  omega

theorem agrees_first {layout : Layout} {offset : Nat} (above : layout.Above offset)
    (other : Layout) : (docsOf layout.comments).Agrees 0
    (docsOf layout.comments ++ Docs.moved offset (docsOf other.comments)) layout.tokens := by
  intro token member
  refine Docs.above_append_left fun entry inside => ?_
  obtain ⟨original, within, rfl⟩ := List.mem_map.mp inside
  obtain ⟨comment, belongs, ends⟩ := mem_docsOf within
  have first := above.tokens token member
  simp only
  omega

theorem agrees_second {layout other : Layout} {offset : Nat} (above : layout.Above offset)
    (counted : other.Counted) : (docsOf other.comments).Agrees offset
    (docsOf layout.comments ++ Docs.moved offset (docsOf other.comments)) other.tokens := by
  intro token member
  rw [Docs.above_append_right, Docs.above_moved]
  intro entry inside
  obtain ⟨comment, belongs, ends⟩ := mem_docsOf inside
  have first := above.comments comment belongs
  have second := counted.tokens token member
  omega

/-- Where the tokens of both parts are read apart, so are the layouts. A fault at the end of the
tokens is one at the last token of the second part, as the first part has no fault. -/
theorem declarations_append_moved {layout other : Layout} {offset : Nat}
    {found : List Declaration}
    (whole : declarations (docsOf (layout.append (other.moved offset)).comments)
        (layout.append (other.moved offset)).tokens =
      (movedRead offset (List.map (Declaration.moved offset))
        (declarations (docsOf other.comments) other.tokens)).map (found ++ ·)) :
    (layout.append (other.moved offset)).declarations =
      followedBy found offset other.declarations := by
  unfold Layout.declarations
  rw [whole]
  cases readOther : declarations (docsOf other.comments) other.tokens with
  | ok others => rfl
  | error fault =>
    have full : other.tokens ≠ [] := by
      intro empty
      rw [empty, declarations] at readOther
      cases readOther
    obtain ⟨last, ends⟩ := Option.isSome_iff_exists.mp (List.getLast?_isSome.mpr full)
    have lastMoved : (layout.append (other.moved offset)).tokens.getLast? =
        some (last.moved offset) := by
      simp only [Layout.append, Layout.moved]
      rw [List.getLast?_append, List.getLast?_map, ends]
      rfl
    rw [lastMoved, ends]
    simp only [movedRead, Except.map, followedBy, SourceFault.moved, ← ReadFault.line_moved]
    rfl

/-- The declarations of both parts. -/
theorem declarations_followed {layout other : Layout} {offset : Nat} {found : List Declaration}
    (above : layout.Above offset) (counted : other.Counted)
    (read : declarations (docsOf layout.comments) layout.tokens = .ok found)
    (terminated : layout.tokens = [] ∨ Terminated layout.tokens)
    (complete : ∀ run ∈ layout.initialiserRuns, Complete run) :
    (layout.append (other.moved offset)).declarations =
      followedBy found offset other.declarations := by
  refine declarations_append_moved ?_
  simp only [Layout.append, Layout.moved]
  rw [docsOf_followed above counted, declarations_append read (agrees_first above other)
    terminated complete, declarations_moved (agrees_second above counted)]

/-! ### Sources -/

theorem terminated_of_last {source : String} {layout : Layout} (laid : layoutOf source = .ok layout)
    (semicolon : ∀ token, layout.tokens.getLast? = some token → token.kind = .semicolon) :
    layout.tokens = [] ∨ Terminated layout.tokens := by
  cases last : layout.tokens.getLast? with
  | none => exact Or.inl (List.getLast?_eq_none_iff.mp last)
  | some token =>
    have kind := semicolon token last
    have text := (proper_of_layoutOf laid token (List.mem_of_getLast? last)).semicolon kind
    refine Or.inr ⟨token.line, ?_⟩
    rw [last, Token.terminator, ← kind, ← text]

theorem readSource_followed {first : String} {layout : Layout} {found : List Declaration}
    (laid : layoutOf first = .ok layout) (accepted : readSource first = .ok found)
    (breaks : ['\n', '\n'] <:+ first.toList)
    (semicolon : ∀ token, layout.tokens.getLast? = some token → token.kind = .semicolon)
    (complete : ∀ run ∈ layout.initialiserRuns, Complete run) (second : String) :
    readSource (first ++ second) = followedBy found (lineAdvance first) (readSource second) := by
  obtain ⟨same, laidSame, read⟩ := readSource_eq_ok.mp accepted
  obtain rfl : same = layout := Except.ok.inj (laidSame.symm.trans laid)
  have endsLine : ['\n'] <:+ first.toList := (List.suffix_cons _ _).trans breaks
  unfold readSource
  rw [layoutOf_append laid endsLine]
  cases laidOther : layoutOf second with
  | error fault => rfl
  | ok other =>
    exact declarations_followed (above_of_layoutOf laid breaks) (counted_of_layoutOf laidOther) read
      (terminated_of_last laid semicolon) complete

/-- Reading is local: a source that ends with two line breaks and, if it has tokens, with a
semicolon, and whose initialisers all ended before the tokens did, is read apart from what follows
it. The declarations of what follows come behind its own and differ from those read alone in their
lines only; a fault of what follows is the fault of the whole, with the same message, on a line as
many further down. -/
theorem readSource_append (first second : String) (layout : Layout) (found : List Declaration)
    (laid : layoutOf first = .ok layout) (accepted : readSource first = .ok found)
    (breaks : ['\n', '\n'] <:+ first.toList)
    (semicolon : ∀ token, layout.tokens.getLast? = some token → token.kind = .semicolon)
    (complete : ∀ run ∈ layout.initialiserRuns, (initialisers 0 [] run).2 < run.length) :
    (∀ others, readSource second = .ok others → readSource (first ++ second) =
      .ok (found ++ others.map (Declaration.moved (lineAdvance first)))) ∧
    ∀ fault, readSource second = .error fault → ∃ moved,
      readSource (first ++ second) = .error moved ∧
      moved.fault = fault.fault.moved (lineAdvance first) ∧
      moved.fault.message = fault.fault.message ∧
      moved.line = fault.line.map (· + lineAdvance first) := by
  have whole := readSource_followed laid accepted breaks semicolon complete second
  refine ⟨fun others read => ?_, fun fault read => ?_⟩
  · rw [whole, read]
    rfl
  · refine ⟨fault.moved (lineAdvance first), ?_, rfl, ?_, rfl⟩
    · rw [whole, read]
      rfl
    · exact ReadFault.message_moved (lineAdvance first) fault.fault

/-- The statement at a variable and a comment, with a group of constants behind them. -/
theorem readSource_append_constants :
    let first := "package p\n\n// A is one.\nvar a = (1)\n\n// Not part of what follows.\n\n"
    let second := "// B and C.\nconst (\n\tb = 2\n\tc = 3\n)\n"
    let one : Declaration := .value ⟨.var, "A is one.\n", [⟨["a"], ["(1)"]⟩], 4⟩
    let others (line : Nat) : Declaration :=
      .value ⟨.const, "B and C.\n", [⟨["b"], ["2"]⟩, ⟨["c"], ["3"]⟩], line⟩
    readSource first = .ok [one] ∧ readSource second = .ok [others 2] ∧
      readSource (first ++ second) = .ok [one, others 9] := by
  intro first second one others
  have laid : layoutOf first = .ok ⟨[⟨.keyword, "package", 1⟩, ⟨.ident, "p", 1⟩, .terminator 1,
      ⟨.keyword, "var", 4⟩, ⟨.ident, "a", 4⟩, ⟨.op, "=", 4⟩, ⟨.op, "(", 4⟩, ⟨.number, "1", 4⟩,
      ⟨.op, ")", 4⟩, .terminator 4], [⟨"// A is one.".toList, 3, 3, true⟩,
      ⟨"// Not part of what follows.".toList, 6, 6, true⟩]⟩ :=
    eq_ok_of_toOption (by decide +kernel)
  have read : readSource first = .ok [one] := eq_ok_of_toOption (by decide +kernel)
  have readOther : readSource second = .ok [others 2] := eq_ok_of_toOption (by decide +kernel)
  have semicolon : ∀ token, some (Token.terminator 4) = some token → token.kind = .semicolon := by
    rintro token ⟨⟩
    rfl
  refine ⟨read, readOther, ?_⟩
  have whole := (readSource_append first second _ _ laid read (by decide +kernel) semicolon
    (by decide +kernel)).1 _ readOther
  have advance : lineAdvance first = 7 := by decide +kernel
  rw [whole, advance]
  rfl

end GoApiDoc.Go
