/-
This file says that struct tags are decoded exactly. A tag is printed from pairs of a key and a
literal in double quotes that has a value, with blanks in front of each pair. Looking a key up gives
the value of the first pair with that key, and nothing if there is none; what else stands in the
values, such as escaped quotes, colons or the text of other pairs, does not matter, and what follows
the pairs matters only to keys that are not among them.

The lookup finds the end of a value by a count of its own. On a literal that has a value this count
agrees with the decoder, since both go along the pieces of the literal, and no piece holds a quote
that could be taken for the closing one. So the first pair is taken off as it was printed, and the
rest is looked up next.
-/

import GoApiDoc.Proofs.LiteralTokens
import GoApiDoc.StructTag
import Mathlib.Data.List.DropRight

namespace GoApiDoc.Go

open Text

/-! ### The end of a value -/

theorem tagValueLength_escaped {next : Char} (inLine : next ≠ '\n') (rest : List Char) :
    tagValueLength ('\\' :: next :: rest) = (tagValueLength rest).map (· + 2) := by
  rw [tagValueLength.eq_def]
  exact if_neg inLine

/-- Characters that neither end nor escape anything are passed over. -/
theorem tagValueLength_ordinary {plain : List Char}
    (ordinary : ∀ char ∈ plain, char ≠ '"' ∧ char ≠ '\n' ∧ char ≠ '\\') (rest : List Char) :
    tagValueLength (plain ++ rest) = (tagValueLength rest).map (· + plain.length) := by
  induction plain with
  | nil =>
    rw [List.nil_append]
    cases tagValueLength rest <;> rfl
  | cons char plain inductionHypothesis =>
    obtain ⟨⟨other, -, noEscape⟩, others⟩ := List.forall_mem_cons.mp ordinary
    have step : tagValueLength (char :: (plain ++ rest)) =
        (tagValueLength (plain ++ rest)).map (· + 1) := by
      rw [tagValueLength.eq_def]
      grind
    rw [List.cons_append, step, inductionHypothesis others, Option.map_map]
    rfl

theorem tagValueLength_piece (piece : LiteralPiece '"') (rest : List Char) :
    tagValueLength (piece.spelling ++ rest) =
      (tagValueLength rest).map (· + piece.spelling.length) := by
  cases piece with
  | plain char other inLine noEscape =>
    exact tagValueLength_ordinary (List.forall_mem_singleton.mpr ⟨other, inLine, noEscape⟩) rest
  | letter mark char listed =>
    have inLine : ∀ entry ∈ letterEscapes, entry.1 ≠ '\n' := by decide
    exact tagValueLength_escaped (inLine _ listed) rest
  | octal digits three =>
    cases digits with
    | nil => nomatch three
    | cons digit digits =>
      have ordinary : ∀ char ∈ digits.map octalChar, char ≠ '"' ∧ char ≠ '\n' ∧ char ≠ '\\' :=
        List.forall_mem_map.mpr fun digit _ => octalChar_ordinary (Or.inl rfl) digit
      rw [LiteralPiece.spelling, List.map_cons, List.cons_append, List.cons_append,
        tagValueLength_escaped (octalChar_ordinary (Or.inl rfl) digit).2.1,
        tagValueLength_ordinary ordinary, Option.map_map]
      rfl
  | hex mark digits listed =>
    have inLine : ∀ entry ∈ hexEscapes, entry.1 ≠ '\n' := by decide
    have ordinary : ∀ char ∈ digits.map HexDigit.char, char ≠ '"' ∧ char ≠ '\n' ∧ char ≠ '\\' :=
      List.forall_mem_map.mpr fun digit _ => digit.char_ordinary (Or.inl rfl)
    rw [LiteralPiece.spelling, List.cons_append, List.cons_append,
      tagValueLength_escaped (inLine _ listed), tagValueLength_ordinary ordinary, Option.map_map]
    rfl

/-- The value of a literal ends with the literal. -/
theorem tagValueLength_pieces (pieces : List (LiteralPiece '"')) (rest : List Char) :
    tagValueLength (pieces.flatMap LiteralPiece.spelling ++ '"' :: rest) =
      some ((pieces.flatMap LiteralPiece.spelling).length + 1) := by
  induction pieces with
  | nil => rfl
  | cons piece pieces inductionHypothesis =>
    rw [List.flatMap_cons, List.append_assoc, tagValueLength_piece, inductionHypothesis,
      Option.map_some, List.length_append]
    exact congrArg some (by omega)

/-! ### What is printed -/

/-- A run of blanks, which may be empty. -/
structure Blanks where
  text : String
  blank : ∀ char ∈ text.toList, isBlank char

/-- The code points of a run of blanks. -/
def Blanks.points (blanks : Blanks) : List Point :=
  blanks.text.toList.map .char

theorem Blanks.blank_points (blanks : Blanks) :
    ∀ point ∈ blanks.points, isBlank (shown point) :=
  List.forall_mem_map.mpr blanks.blank

/-- A key with a literal in double quotes, and the value of the literal. -/
structure TagPair where
  key : Text
  literal : Text
  value : Text
  full : key ≠ .plain ""
  inside : ∀ point ∈ key.points, isTagKeyChar (shown point)
  quoted : literal.points.head? = some (.char '"')
  decoded : unquoteList literal.points = .ok value.points

/-- A pair as it stands in a tag. -/
def TagPair.text (pair : TagPair) : Text :=
  pair.key ++ .plain ":" ++ pair.literal

/-- Pairs with blanks in front of each. -/
def pairsText : List (Blanks × TagPair) → Text
  | [] => .plain ""
  | (gap, pair) :: rest => .plain gap.text ++ pair.text ++ pairsText rest

/-- The value of the first pair with the key. -/
def firstValue (pairs : List (Blanks × TagPair)) (key : Text) : Option Text :=
  ((pairs.map Prod.snd).find? fun pair => pair.key = key).map TagPair.value

theorem isSome_firstValue {pairs : List (Blanks × TagPair)} {key : Text} :
    (firstValue pairs key).isSome ↔ ∃ entry ∈ pairs, entry.2.key = key := by
  rw [firstValue, Option.isSome_map, List.find?_isSome]
  constructor
  · rintro ⟨pair, member, same⟩
    obtain ⟨entry, inside, rfl⟩ := List.mem_map.mp member
    exact ⟨entry, inside, of_decide_eq_true same⟩
  · rintro ⟨entry, inside, same⟩
    exact ⟨entry.2, List.mem_map_of_mem inside, decide_eq_true same⟩

/-! ### Literals of code points -/

/-- Only the character itself is shown as a character, but for the replacement character. -/
theorem eq_char_of_shown {point : Point} {char : Char} (same : shown point = char)
    (real : char ≠ '\uFFFD') : point = .char char := by
  cases point with
  | char value => exact congrArg Point.char same
  | half offset => exact absurd same.symm real

/-- What is decoded is still decoded where each surrogate is replaced by a character. -/
theorem decodePieces_shown {quote : Char} {body value : List Point}
    (decoded : decodePieces quote body = .ok value) :
    ∃ replaced, decodePieces quote (body.map shown) = .ok replaced := by
  induction body using drop_induction generalizing value with
  | nil => exact ⟨[], by rw [List.map_nil, decodePieces]⟩
  | cons point rest behind =>
    rw [decodePieces] at decoded
    rw [List.map_cons, decodePieces_cons]
    split at decoded
    · cases decoded
    · next goesOn =>
      rw [if_neg goesOn]
      split at decoded
      · next backslash =>
        rw [if_pos backslash]
        cases read : escape (rest.map shown) with
        | error fault =>
          rw [read] at decoded
          cases decoded
        | ok result =>
          obtain ⟨found, used⟩ := result
          rw [read] at decoded
          obtain ⟨others, decodedRest, -⟩ := map_eq_ok.mp decoded
          obtain ⟨replaced, decodedShown⟩ := behind used decodedRest
          rw [List.map_drop] at decodedShown
          exact ⟨found :: replaced, by simp only [decodedShown, Except.map]⟩
      · next noEscape =>
        rw [if_neg noEscape]
        obtain ⟨others, decodedRest, -⟩ := map_eq_ok.mp decoded
        obtain ⟨replaced, decodedShown⟩ := behind 0 decodedRest
        exact ⟨_ :: replaced, by rw [List.drop_zero] at decodedShown; rw [decodedShown]; rfl⟩

/-! ### One pair -/

namespace TagPair

variable (pair : TagPair)

theorem exists_body : ∃ body, pair.literal.points = .char '"' :: (body ++ [.char '"']) ∧
    ∀ rest, tagValueLength (body.map shown ++ '"' :: rest) = some (body.length + 1) := by
  have decoded := pair.decoded
  obtain ⟨rest, whole⟩ := List.head?_eq_some_iff.mp pair.quoted
  rw [whole] at decoded
  rcases List.eq_nil_or_concat rest with rfl | ⟨body, last, rfl⟩
  · cases decoded
  rw [List.concat_eq_append] at decoded whole
  rw [unquoteList, enclosed_concat, shown_point] at decoded
  by_cases closes : shown last = '"'
  · have decodedBody : decodePieces '"' body = .ok pair.value.points := by
      rw [if_pos closes] at decoded
      exact decoded
    rw [eq_char_of_shown closes (by decide)] at whole
    refine ⟨body, whole, fun rest => ?_⟩
    obtain ⟨replaced, decodedShown⟩ := decodePieces_shown decodedBody
    obtain ⟨pieces, spelled, -⟩ := exists_pieces_of_decodePieces decodedShown
    have ends := tagValueLength_pieces pieces rest
    rw [← spelled, List.length_map] at ends
    exact ends
  · rw [if_neg closes] at decoded
    cases decoded

theorem exists_key : ∃ first rest, pair.key.points = first :: rest ∧
    isBlank (shown first) = false := by
  cases points : pair.key.points with
  | nil => exact absurd (Text.points_inj.mp points) pair.full
  | cons first rest =>
    have key := pair.inside first (points ▸ List.mem_cons_self)
    simp only [isTagKeyChar, Bool.and_eq_true, Bool.not_eq_true'] at key
    exact ⟨first, rest, rfl, key.1.1⟩

theorem points_text :
    pair.text.points = pair.key.points ++ .char ':' :: pair.literal.points := by
  rw [text, Text.points_append, Text.points_append, List.append_assoc]
  rfl

/-- A pair at the start of a text is taken off as it was printed. -/
theorem tagPair_text (gap : Blanks) (rest : List Point) :
    tagPair (gap.points ++ (pair.text.points ++ rest)) =
      some (pair.key.points, pair.literal.points,
        gap.points.length + pair.text.points.length) := by
  obtain ⟨body, literal, ends⟩ := pair.exists_body
  obtain ⟨first, others, key, solid⟩ := pair.exists_key
  have spelled : pair.text.points ++ rest =
      pair.key.points ++ .char ':' :: .char '"' :: (body ++ .char '"' :: rest) := by
    rw [points_text, literal, List.append_assoc, List.cons_append, List.cons_append,
      List.append_assoc, List.singleton_append]
  have blanks : (gap.points ++ (pair.text.points ++ rest)).takeWhile
      (fun point => isBlank (shown point)) = gap.points := by
    rw [List.takeWhile_append_of_pos gap.blank_points, spelled, key, List.cons_append,
      List.takeWhile_cons_of_neg (p := fun point => isBlank (shown point))
        (ne_true_of_eq_false solid), List.append_nil]
  have name : (pair.text.points ++ rest).takeWhile (fun point => isTagKeyChar (shown point)) =
      pair.key.points := by
    rw [spelled, List.takeWhile_append_of_pos pair.inside,
      List.takeWhile_cons_of_neg (by decide), List.append_nil]
  have present : pair.key.points.isEmpty = false := by rw [key]; rfl
  have behind : (gap.points ++ (pair.text.points ++ rest)).drop
      (gap.points.length + pair.key.points.length) =
        .char ':' :: .char '"' :: (body ++ .char '"' :: rest) := by
    rw [List.drop_length_add_append, spelled, List.drop_left]
  have taken : (body ++ .char '"' :: rest).take (body.length + 1) = body ++ [.char '"'] := by
    rw [List.take_length_add_append]
    rfl
  have ended : tagValueLength ((body ++ .char '"' :: rest).map shown) = some (body.length + 1) := by
    rw [List.map_append]
    exact ends (rest.map shown)
  unfold tagPair
  simp only [blanks, List.drop_left, name, present, behind, ended, Option.map_some, taken]
  rw [points_text, literal, if_neg Bool.false_ne_true]
  refine congrArg some (congrArg (pair.key.points, .char '"' :: (body ++ [.char '"']), ·) ?_)
  simp only [List.length_append, List.length_cons, List.length_nil]
  omega

/-- The lookup stops at a pair with the key and goes on behind any other pair. -/
theorem lookupFrom_text (gap : Blanks) (wanted : Text) (rest : List Point) :
    lookupFrom wanted.points (gap.points ++ (pair.text.points ++ rest)) =
      if pair.key = wanted then .ok (some pair.value) else lookupFrom wanted.points rest := by
  have taken := pair.tagPair_text gap rest
  have left : (gap.points ++ (pair.text.points ++ rest)).drop
      (gap.points.length + pair.text.points.length) = rest := by
    rw [List.drop_length_add_append, List.drop_left]
  obtain ⟨used, length⟩ : ∃ used, gap.points.length + pair.text.points.length = used + 1 := by
    refine ⟨gap.points.length + pair.key.points.length + pair.literal.points.length, ?_⟩
    rw [points_text, List.length_append, List.length_cons]
    omega
  rw [length] at taken left
  cases text : gap.points ++ (pair.text.points ++ rest) with
  | nil =>
    rw [text] at taken
    nomatch taken
  | cons first tail =>
    rw [text] at taken left
    rw [List.drop_succ_cons] at left
    rw [lookupFrom, taken]
    simp only [pair.decoded, Text.ofPoints_points, Nat.add_sub_cancel, left, Text.points_inj]

end TagPair

/-! ### Lookup -/

/-- Among pairs the lookup finds the first one with the key, and behind them what is there. -/
theorem lookupFrom_pairsText (pairs : List (Blanks × TagPair)) (key : Text)
    (behind : List Point) :
    lookupFrom key.points ((pairsText pairs).points ++ behind) =
      match firstValue pairs key with
      | some value => .ok (some value)
      | none => lookupFrom key.points behind := by
  induction pairs with
  | nil => rfl
  | cons entry rest inductionHypothesis =>
    obtain ⟨gap, pair⟩ := entry
    rw [pairsText, Text.points_append, Text.points_append, List.append_assoc, List.append_assoc,
      Text.points_plain, ← Blanks.points, pair.lookupFrom_text, inductionHypothesis]
    by_cases same : pair.key = key
    · rw [if_pos same]
      simp [firstValue, same]
    · rw [if_neg same]
      simp [firstValue, same]

/-! ### Blanks around the pairs -/

theorem trimTagRight_append {front : List Point} {last : Point}
    (solid : isBlank (shown last) = false) (behind : List Point) :
    trimTagRight (front ++ [last] ++ behind) = front ++ [last] ++ trimTagRight behind := by
  have reversed : (front ++ [last] ++ behind).reverse =
      behind.reverse ++ last :: front.reverse := by simp
  have stops := @List.dropWhile_cons_of_neg _ (fun point => isBlank (shown point)) last
    front.reverse (ne_true_of_eq_false solid)
  rw [trimTagRight, trimTagRight, reversed, List.dropWhile_append]
  split
  · next none =>
    rw [List.isEmpty_iff.mp none, stops]
    simp
  · simp

theorem trimTagRight_blanks (blanks : Blanks) : trimTagRight blanks.points = [] :=
  List.rdropWhile_eq_nil_iff.mpr blanks.blank_points

theorem trimTag_blanks (blanks : Blanks) : trimTag blanks.points = [] := by
  rw [trimTag, List.dropWhile_eq_nil_iff.mpr blanks.blank_points]
  rfl

/-- Pairs end with a quote. -/
theorem exists_front (entry : Blanks × TagPair) (rest : List (Blanks × TagPair)) :
    ∃ front, (pairsText (entry :: rest)).points = front ++ [.char '"'] := by
  induction rest generalizing entry with
  | nil =>
    obtain ⟨gap, pair⟩ := entry
    obtain ⟨body, literal, -⟩ := pair.exists_body
    refine ⟨gap.points ++ (pair.key.points ++ .char ':' :: .char '"' :: body), ?_⟩
    rw [pairsText, pairsText, Text.points_append, Text.points_append, pair.points_text, literal]
    simp [Blanks.points]
  | cons next rest inductionHypothesis =>
    obtain ⟨gap, pair⟩ := entry
    obtain ⟨front, ends⟩ := inductionHypothesis next
    refine ⟨(Text.plain gap.text ++ pair.text).points ++ front, ?_⟩
    rw [pairsText, Text.points_append, ends, List.append_assoc]

/-- Trimming takes the blanks in front of the first pair away, and none in front of what follows
the pairs. -/
theorem trimTag_pairsText (gap : Blanks) (pair : TagPair) (rest : List (Blanks × TagPair))
    (behind : List Point) :
    trimTag ((pairsText ((gap, pair) :: rest)).points ++ behind) =
      (pairsText ((⟨"", nofun⟩, pair) :: rest)).points ++ trimTagRight behind := by
  obtain ⟨first, others, key, solid⟩ := pair.exists_key
  obtain ⟨front, ends⟩ := exists_front (⟨"", nofun⟩, pair) rest
  have whole : (pairsText ((gap, pair) :: rest)).points =
      gap.points ++ (pairsText ((⟨"", nofun⟩, pair) :: rest)).points := by
    simp [pairsText, Text.points_append, Blanks.points]
  obtain ⟨tail, starts⟩ : ∃ tail,
      (pairsText ((⟨"", nofun⟩, pair) :: rest)).points = first :: tail := by
    refine ⟨others ++ .char ':' :: pair.literal.points ++ (pairsText rest).points, ?_⟩
    simp [pairsText, Text.points_append, pair.points_text, key]
  have kept : (first :: tail ++ behind).dropWhile (fun point => isBlank (shown point)) =
      first :: tail ++ behind :=
    List.dropWhile_cons_of_neg (ne_true_of_eq_false solid)
  rw [trimTag, whole, List.append_assoc, List.dropWhile_append_of_pos gap.blank_points, starts,
    kept, ← starts, ends, trimTagRight_append (by decide)]

/-- Looking a key up among pairs with anything behind them. -/
theorem tagLookup_pairsText (pairs : List (Blanks × TagPair)) (key appended : Text) :
    ∃ behind, tagLookup (pairsText pairs ++ appended) key =
        (match firstValue pairs key with
        | some value => .ok (some value)
        | none => lookupFrom key.points behind) ∧
      (behind = trimTag appended.points ∨ behind = trimTagRight appended.points) := by
  rw [tagLookup, Text.points_append]
  cases pairs with
  | nil => exact ⟨_, rfl, Or.inl rfl⟩
  | cons entry rest =>
    obtain ⟨gap, pair⟩ := entry
    refine ⟨_, ?_, Or.inr rfl⟩
    rw [trimTag_pairsText, lookupFrom_pairsText]
    rfl

theorem tagLookup_blanks (pairs : List (Blanks × TagPair)) (key : Text) (trailing : Blanks) :
    tagLookup (pairsText pairs ++ .plain trailing.text) key = .ok (firstValue pairs key) := by
  obtain ⟨behind, found, nothing⟩ := tagLookup_pairsText pairs key (.plain trailing.text)
  rw [Text.points_plain, ← Blanks.points, trimTag_blanks, trimTagRight_blanks, or_self] at nothing
  rw [found, nothing]
  cases firstValue pairs key with
  | none => rw [lookupFrom]
  | some value => rfl

theorem tagLookup_of_mem (pairs : List (Blanks × TagPair)) (key appended : Text)
    (occurs : ∃ entry ∈ pairs, entry.2.key = key) :
    tagLookup (pairsText pairs ++ appended) key = .ok (firstValue pairs key) := by
  obtain ⟨behind, found, -⟩ := tagLookup_pairsText pairs key appended
  obtain ⟨value, first⟩ := Option.isSome_iff_exists.mp (isSome_firstValue.mpr occurs)
  rw [found, first]

/-! ### Names of fields -/

theorem serialName_of_options {field : Field} {value : Text}
    (options : field.options = .ok (some value)) :
    field.serialName = .ok (
      let name := Text.ofPoints (value.points.takeWhile (· ≠ .char ','))
      if value = .plain "-" then .plain "" else if name ≠ .plain "" then name
      else if field.embedded then .plain "" else .plain (lowerFirst field.name)) := by
  rw [Field.serialName, options]
  by_cases omitted : value = .plain "-"
  · subst omitted
    rfl
  · have other : some value ≠ some (.plain "-") := fun same => omitted (Option.some.inj same)
    simp only [bind, Except.bind, if_neg other, if_neg omitted, Option.getD_some, beforeComma,
      Bool.not_eq_true', Bool.eq_false_iff, ne_eq, Text.isEmpty_iff]
    split
    · rfl
    · split
      · rfl
      · rfl

/-- An empty tag says nothing, which is also what is found in it. -/
theorem options_of_tag {field : Field} {tag : Text} (tagged : field.tag = some tag) :
    field.options = tagLookup tag (.plain "json") := by
  rw [Field.options, tagged]
  by_cases empty : tag = .plain ""
  · subst empty
    have nothing : tagLookup (.plain "") (.plain "json") = .ok none := by
      rw [tagLookup]
      exact lookupFrom.eq_1 _
    rw [nothing]
    rfl
  · exact if_neg fun none => empty (Text.isEmpty_iff.mp none)

/-- Struct tags are decoded exactly. Among pairs with blanks between and around them a key has the
value of the first pair with that key, and none if there is no such pair. Whatever is put behind
the pairs, the keys that are among them keep their values. So a field with such a tag is left out if
the value of its tag is a hyphen, and else is named as the value says before its first comma; where
this is nothing, an embedded field is left out and any other one has its own name with a small first
letter. -/
theorem tagLookup_exact (pairs : List (Blanks × TagPair)) :
    (∀ (key : Text) (trailing : Blanks),
      tagLookup (pairsText pairs ++ .plain trailing.text) key = .ok (firstValue pairs key)) ∧
    (∀ key appended : Text, (∃ entry ∈ pairs, entry.2.key = key) →
      tagLookup (pairsText pairs ++ appended) key = .ok (firstValue pairs key)) ∧
    ∀ (field : Field) (appended value : Text), field.tag = some (pairsText pairs ++ appended) →
      firstValue pairs (.plain "json") = some value →
      field.serialName = .ok (
        let name := Text.ofPoints (value.points.takeWhile (· ≠ .char ','))
        if value = .plain "-" then .plain "" else if name ≠ .plain "" then name
        else if field.embedded then .plain "" else .plain (lowerFirst field.name)) := by
  refine ⟨tagLookup_blanks pairs, tagLookup_of_mem pairs, ?_⟩
  intro field appended value tagged first
  have occurs : ∃ entry ∈ pairs, entry.2.key = .plain "json" :=
    isSome_firstValue.mp (Option.isSome_iff_exists.mpr ⟨value, first⟩)
  refine serialName_of_options ?_
  rw [options_of_tag tagged, tagLookup_of_mem pairs (.plain "json") appended occurs, first]

/-- The statement at a tag with the text of a pair among the characters of a value, a surrogate in
another value, and two pairs of one key. -/
theorem tagLookup_exact_hidden_pair :
    let first : TagPair := ⟨.plain "db", .plain "\"a\\\" json:\\\"x\\\"\"", .plain "a\" json:\"x\"",
      by decide, List.all_eq_true.mp rfl, by decide +kernel, eq_ok_of_toOption (by decide +kernel)⟩
    let half : TagPair := ⟨.plain "xml", .plain "\"\\ud800\"", .broken [.half 0] rfl,
      by decide, List.all_eq_true.mp rfl, by decide +kernel, eq_ok_of_toOption (by decide +kernel)⟩
    let second : TagPair := ⟨.plain "json", .plain "\"id,omitempty\"", .plain "id,omitempty",
      by decide, List.all_eq_true.mp rfl, by decide +kernel, eq_ok_of_toOption (by decide +kernel)⟩
    let third : TagPair := ⟨.plain "json", .plain "\"-\"", .plain "-",
      by decide, List.all_eq_true.mp rfl, by decide +kernel, eq_ok_of_toOption (by decide +kernel)⟩
    let space : Blanks := ⟨" ", List.all_eq_true.mp rfl⟩
    let tabbed : Blanks := ⟨"\t ", List.all_eq_true.mp rfl⟩
    let pairs : List (Blanks × TagPair) :=
      [(⟨"", List.all_eq_true.mp rfl⟩, first), (space, half), (tabbed, second), (space, third)]
    let tag :=
      "db:\"a\\\" json:\\\"x\\\"\" xml:\"\\ud800\"\t json:\"id,omitempty\" json:\"-\""
    pairsText pairs = .plain tag ∧
      tagLookup (.plain (tag ++ "\n")) (.plain "xml") = .ok (some (.broken [.half 0] rfl)) ∧
      tagLookup (.plain (tag ++ " json:broken")) (.plain "json") =
        .ok (some (.plain "id,omitempty")) ∧
      Field.serialName ⟨"ID", .named "int", some (.plain (tag ++ " json:broken")), false⟩ =
        .ok (.plain "id") := by
  intro first half second third space tabbed pairs tag
  have text : pairsText pairs = .plain tag := by decide +kernel
  have json : firstValue pairs (.plain "json") = some (.plain "id,omitempty") := by decide +kernel
  obtain ⟨alone, followed, names⟩ := tagLookup_exact pairs
  rw [text] at alone followed names
  refine ⟨text, ?_, ?_, ?_⟩
  · exact (alone (.plain "xml") ⟨"\n", List.all_eq_true.mp rfl⟩).trans
      (congrArg Except.ok (by decide +kernel))
  · have occurs : ∃ entry ∈ pairs, entry.2.key = .plain "json" :=
      ⟨(tabbed, second), by simp [pairs], rfl⟩
    exact (followed (.plain "json") (.plain " json:broken") occurs).trans (congrArg Except.ok json)
  · exact (names _ (.plain " json:broken") (.plain "id,omitempty") rfl json).trans
      (congrArg Except.ok (by decide +kernel))

end GoApiDoc.Go
