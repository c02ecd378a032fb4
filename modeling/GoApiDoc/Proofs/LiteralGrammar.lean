/-
This file gives the grammar of literals in quotes and shows that the decoder takes exactly what the
grammar spells. A literal is a run of pieces between two quotes. A piece is a character that stands
for itself, an escape of one letter, or an escape with the digits of a code point; it has a spelling
and a code point.

Both directions go along the pieces. A spelling in front of any text is decoded as its code point,
and the text behind it is decoded next, so a run of pieces is decoded piece by piece. The other way
round, whatever the decoder takes in one step is the spelling of a piece. Eight digits can spell a
number that is no code point: there the decoder stops.
-/

import GoApiDoc.Proofs.Escapes
import Mathlib.Data.Nat.Digits.Defs
import Mathlib.Data.Set.List

namespace GoApiDoc.Go

open Text

/-! ### Digits -/

/-- What is checked of each ASCII character holds of all of them. -/
theorem forall_ascii (holds : Char → Prop) (each : ∀ point < 128, holds (Char.ofNat point))
    {char : Char} (small : char.toNat < 128) : holds char := by
  have own := each char.toNat small
  rwa [Char.ofNat_toNat] at own

/-- A hexadecimal digit: its value, and whether it is written as a capital if it is a letter. -/
structure HexDigit where
  value : Fin 16
  capital : Bool
  deriving DecidableEq, Repr

/-- The character that writes the digit. -/
def HexDigit.char (digit : HexDigit) : Char :=
  if digit.capital then (Nat.digitChar digit.value).toUpper else Nat.digitChar digit.value

theorem HexDigit.hexValue_char (digit : HexDigit) : hexValue digit.char = some digit.value.val := by
  have each : ∀ value : Fin 16, ∀ capital : Bool,
      hexValue (HexDigit.char ⟨value, capital⟩) = some value.val := by decide +kernel
  exact each digit.value digit.capital

theorem HexDigit.isHexDigit_char (digit : HexDigit) : isHexDigit digit.char := by
  rw [isHexDigit, digit.hexValue_char]
  rfl

theorem toNat_lt_of_isHexDigit {char : Char} (digit : isHexDigit char) : char.toNat < 128 := by
  have high : ∀ last : Char, char ≤ last → char.toNat ≤ last.toNat := fun last le => le
  unfold isHexDigit hexValue at digit
  split at digit
  · next decimal =>
    simp only [isAsciiDigit, Bool.and_eq_true, decide_eq_true_eq] at decimal
    exact Nat.lt_of_le_of_lt (high '9' decimal.2) (by decide)
  split at digit
  · next lower =>
    simp only [Bool.and_eq_true, decide_eq_true_eq] at lower
    exact Nat.lt_of_le_of_lt (high 'f' lower.2) (by decide)
  split at digit
  · next upper =>
    simp only [Bool.and_eq_true, decide_eq_true_eq] at upper
    exact Nat.lt_of_le_of_lt (high 'F' upper.2) (by decide)
  · simp at digit

theorem exists_hexDigit {char : Char} (digit : isHexDigit char) :
    ∃ written : HexDigit, written.char = char := by
  obtain ⟨value, capital, written⟩ := forall_ascii
    (fun char => isHexDigit char → ∃ value : Fin 16, ∃ capital : Bool,
      HexDigit.char ⟨value, capital⟩ = char)
    (by decide +kernel) (toNat_lt_of_isHexDigit digit) digit
  exact ⟨⟨value, capital⟩, written⟩

/-- The character that writes an octal digit. -/
def octalChar (digit : Fin 8) : Char :=
  Nat.digitChar digit

theorem hexValue_octalChar (digit : Fin 8) : hexValue (octalChar digit) = some digit.val := by
  revert digit
  decide +kernel

theorem isOctalDigit_octalChar (digit : Fin 8) : isOctalDigit (octalChar digit) := by
  revert digit
  decide +kernel

theorem exists_octalChar {char : Char} (digit : isOctalDigit char) :
    ∃ written : Fin 8, octalChar written = char := by
  have small : char.toNat < 128 := by
    simp only [isOctalDigit, Bool.and_eq_true, decide_eq_true_eq] at digit
    have le : char.toNat ≤ '7'.toNat := digit.2
    exact Nat.lt_of_le_of_lt le (by decide)
  exact forall_ascii (fun char => isOctalDigit char → ∃ written : Fin 8, octalChar written = char)
    (by decide +kernel) small digit

/-- The number of a run of digits is the one that it has in positional notation. -/
theorem numberOf_map {Digit : Type} (base : Nat) {write : Digit → Char} {value : Digit → Nat}
    (valued : ∀ digit, hexValue (write digit) = some (value digit)) (digits : List Digit) :
    numberOf base (digits.map write) = Nat.ofDigits base (digits.map value).reverse := by
  rw [numberOf, List.foldl_map, List.foldl_eq_foldr_reverse, Nat.ofDigits_eq_foldr,
    ← List.map_reverse, List.foldr_map]
  refine congrArg (fun step => List.foldr step 0 digits.reverse) ?_
  funext digit number
  rw [valued, Option.getD_some, Nat.cast_id, Nat.mul_comm, Nat.add_comm]

/-! ### Pieces -/

/-- The escapes of one letter, each with the character that it denotes. -/
def letterEscapes : List (Char × Char) :=
  [('a', '\x07'), ('b', '\x08'), ('f', '\x0c'), ('n', '\n'), ('r', '\r'), ('t', '\t'),
   ('v', '\x0b'), ('\\', '\\'), ('\'', '\''), ('"', '"')]

/-- The letters of the escapes in hexadecimal digits, each with the number of its digits. -/
def hexEscapes : List (Char × Nat) :=
  [('x', 2), ('u', 4), ('U', 8)]

/-- A piece of a literal between two quotes. -/
inductive LiteralPiece (quote : Char)
  /-- A character that stands for itself. -/
  | plain (char : Char) (other : char ≠ quote) (inLine : char ≠ '\n') (noEscape : char ≠ '\\')
  /-- A backslash and a letter. -/
  | letter (mark char : Char) (listed : (mark, char) ∈ letterEscapes)
  /-- A backslash and three octal digits. -/
  | octal (digits : List (Fin 8)) (three : digits.length = 3)
  /-- A backslash, a letter and as many hexadecimal digits as the letter asks for. -/
  | hex (mark : Char) (digits : List HexDigit) (listed : (mark, digits.length) ∈ hexEscapes)

namespace LiteralPiece

variable {quote : Char}

/-- The characters that the piece is written with. -/
def spelling : LiteralPiece quote → List Char
  | plain char _ _ _ => [char]
  | letter mark _ _ => ['\\', mark]
  | octal digits _ => '\\' :: digits.map octalChar
  | hex mark digits _ => '\\' :: mark :: digits.map HexDigit.char

/-- The code point that the piece denotes. -/
def point : LiteralPiece quote → Nat
  | plain char _ _ _ => char.toNat
  | letter _ char _ => char.toNat
  | octal digits _ => Nat.ofDigits 8 (digits.map Fin.val).reverse
  | hex _ digits _ => Nat.ofDigits 16 (digits.map fun digit => digit.value.val).reverse

end LiteralPiece

/-! ### One piece -/

theorem pointOf_eq_ok {number : Nat} {point : Point} :
    pointOf number = .ok point ↔ point.number = number := by
  rw [← Point.ofNat?_eq_some, pointOf]
  constructor
  · intro found
    split at found
    · cases found
    · split at found
      · next known => rw [known, Except.ok.inj found]
      · cases found
  · intro known
    have below := point.number_lt
    rw [Point.ofNat?_eq_some.mp known] at below
    rw [if_neg (by omega), known]

theorem simpleEscape_eq_some {mark char : Char} :
    simpleEscape mark = some char ↔ (mark, char) ∈ letterEscapes := by
  constructor
  · intro found
    unfold simpleEscape at found
    split at found
    case h_11 => simp at found
    all_goals
      obtain rfl := Option.some.inj found
      decide
  · intro listed
    simp only [letterEscapes, List.mem_cons, Prod.mk.injEq, List.not_mem_nil, or_false] at listed
    obtain ⟨rfl, rfl⟩ | ⟨rfl, rfl⟩ | ⟨rfl, rfl⟩ | ⟨rfl, rfl⟩ | ⟨rfl, rfl⟩ | ⟨rfl, rfl⟩ |
      ⟨rfl, rfl⟩ | ⟨rfl, rfl⟩ | ⟨rfl, rfl⟩ | ⟨rfl, rfl⟩ := listed <;> rfl

theorem hexWidth_eq_some {mark : Char} {width : Nat} :
    hexWidth mark = some width ↔ (mark, width) ∈ hexEscapes := by
  unfold hexWidth hexEscapes
  grind

theorem digitRun_map {Digit : Type} {isDigitOf : Char → Bool} {write : Digit → Char}
    (written : ∀ digit, isDigitOf (write digit)) (digits : List Digit) (rest : List Char) :
    digitRun isDigitOf digits.length (digits.map write ++ rest) = some (digits.map write) := by
  have whole : (digits.map write ++ rest).take digits.length = digits.map write := by
    rw [← List.length_map (f := write), List.take_left]
  have all : (digits.map write).all isDigitOf := by
    rw [List.all_map, List.all_eq_true]
    exact fun digit _ => written digit
  rw [digitRun, whole, if_pos ⟨List.length_map _, all⟩]

theorem escape_letter {mark char : Char} (listed : (mark, char) ∈ letterEscapes)
    (rest : List Char) : escape (mark :: rest) = .ok (.char char, 1) := by
  simp only [escape, simpleEscape_eq_some.mpr listed]

theorem escape_hex {mark : Char} {digits : List HexDigit}
    (listed : (mark, digits.length) ∈ hexEscapes) (rest : List Char) :
    escape (mark :: (digits.map HexDigit.char ++ rest)) =
      (pointOf (Nat.ofDigits 16 (digits.map fun digit => digit.value.val).reverse)).map
        (·, digits.length + 1) := by
  have noLetter : simpleEscape mark = none := by
    have each : ∀ escape ∈ hexEscapes, simpleEscape escape.1 = none := by decide
    exact each _ listed
  simp only [escape, noLetter, hexWidth_eq_some.mpr listed,
    digitRun_map HexDigit.isHexDigit_char, numberOf_map 16 HexDigit.hexValue_char]

theorem escape_octal {digits : List (Fin 8)} (three : digits.length = 3) (rest : List Char) :
    escape (digits.map octalChar ++ rest) =
      (pointOf (Nat.ofDigits 8 (digits.map Fin.val).reverse)).map (·, 3) := by
  have run := digitRun_map isOctalDigit_octalChar digits rest
  have number := numberOf_map 8 hexValue_octalChar digits
  have noLetter : ∀ digit, simpleEscape (octalChar digit) = none := by decide +kernel
  have noMark : ∀ digit, hexWidth (octalChar digit) = none := by decide +kernel
  rw [three] at run
  cases digits with
  | nil => nomatch three
  | cons first others =>
    rw [List.map_cons, List.cons_append] at run
    rw [List.map_cons] at number
    simp only [List.map_cons, List.cons_append, escape, noLetter, noMark, run, number]

/-- What the decoder takes as an escape is the spelling of a piece. -/
theorem exists_piece_of_escape (quote : Char) {decoded : Point} {text : List Char} {used : Nat}
    (read : escape text = .ok (decoded, used)) :
    ∃ piece : LiteralPiece quote, '\\' :: text = piece.spelling ++ text.drop used ∧
      piece.point = decoded.number := by
  unfold escape at read
  split at read
  · simp at read
  next mark rest =>
  split at read
  · next found =>
    simp only [Except.ok.injEq, Prod.mk.injEq] at read
    obtain ⟨rfl, rfl⟩ := read
    exact ⟨.letter mark _ (simpleEscape_eq_some.mp found), rfl, rfl⟩
  split at read
  · next width isWidth =>
    split at read
    · next chars run =>
      obtain ⟨point, isPoint, same⟩ := map_eq_ok.mp read
      obtain ⟨rfl, rfl⟩ := Prod.mk.inj same
      obtain ⟨rfl, long, all⟩ := digitRun_eq_some run
      have written : rest.take width ∈ Set.range (List.map HexDigit.char) := by
        rw [Set.range_list_map]
        exact fun digit member => exists_hexDigit (all digit member)
      obtain ⟨digits, spelled⟩ := written
      obtain rfl : digits.length = width := by rw [← List.length_map, spelled, long]
      refine ⟨.hex mark digits (hexWidth_eq_some.mp isWidth), ?_, ?_⟩
      · simp only [LiteralPiece.spelling, List.cons_append, List.drop_succ_cons, spelled,
          List.take_append_drop]
      · rw [pointOf_eq_ok.mp isPoint, ← spelled, numberOf_map 16 HexDigit.hexValue_char]
        rfl
    · simp at read
  · split at read
    · next chars run =>
      obtain ⟨point, isPoint, same⟩ := map_eq_ok.mp read
      obtain ⟨rfl, rfl⟩ := Prod.mk.inj same
      obtain ⟨rfl, long, all⟩ := digitRun_eq_some run
      have written : (mark :: rest).take 3 ∈ Set.range (List.map octalChar) := by
        rw [Set.range_list_map]
        exact fun digit member => exists_octalChar (all digit member)
      obtain ⟨digits, spelled⟩ := written
      have three : digits.length = 3 := by rw [← List.length_map, spelled, long]
      refine ⟨.octal digits three, ?_, ?_⟩
      · rw [LiteralPiece.spelling, spelled, List.cons_append, List.take_append_drop]
      · rw [pointOf_eq_ok.mp isPoint, ← spelled, numberOf_map 8 hexValue_octalChar]
        rfl
    · simp at read

/-! ### Runs of pieces -/

section

variable {quote : Char} (mark : quote = '"' ∨ quote = '\'')
include mark

/-- A piece in front of a text is decoded first, and then the text. -/
theorem decodePieces_spelling (piece : LiteralPiece quote) (rest : List Char) :
    decodePieces quote (piece.spelling ++ rest) =
      (pointOf piece.point).bind fun point => (decodePieces quote rest).map (point :: ·) := by
  have backslash : ¬('\\' = '\n' ∨ '\\' = quote) := by rcases mark with rfl | rfl <;> decide
  cases piece with
  | plain char other inLine noEscape =>
    have own : pointOf char.toNat = .ok (.char char) := pointOf_eq_ok.mpr rfl
    rw [LiteralPiece.spelling, LiteralPiece.point, own, List.singleton_append,
      decodePieces_cons, if_neg (not_or.mpr ⟨inLine, other⟩), if_neg noEscape]
    cases decodePieces quote rest <;> rfl
  | letter letter char listed =>
    have own : pointOf char.toNat = .ok (.char char) := pointOf_eq_ok.mpr rfl
    rw [LiteralPiece.spelling, LiteralPiece.point, own, List.cons_append,
      decodePieces_cons, if_neg backslash, if_pos rfl, List.singleton_append, escape_letter listed]
    simp only [List.drop_succ_cons, List.drop_zero]
    cases decodePieces quote rest <;> rfl
  | octal digits three =>
    have behind : (digits.map octalChar ++ rest).drop 3 = rest := by
      rw [← three, ← List.length_map (f := octalChar), List.drop_left]
    rw [LiteralPiece.spelling, LiteralPiece.point, List.cons_append,
      decodePieces_cons, if_neg backslash, if_pos rfl, escape_octal three]
    cases pointOf (Nat.ofDigits 8 (digits.map Fin.val).reverse) with
    | error fault => rfl
    | ok char =>
      simp only [Except.map, Except.bind, behind]
  | hex letter digits listed =>
    have behind : (digits.map HexDigit.char ++ rest).drop digits.length = rest := by
      rw [← List.length_map (f := HexDigit.char), List.drop_left]
    rw [LiteralPiece.spelling, LiteralPiece.point, List.cons_append, List.cons_append,
      decodePieces_cons, if_neg backslash, if_pos rfl, escape_hex listed]
    cases pointOf (Nat.ofDigits 16 (digits.map fun digit => digit.value.val).reverse) with
    | error fault => rfl
    | ok char =>
      simp only [Except.map, Except.bind, List.drop_succ_cons, behind]

/-- A run of pieces is decoded piece by piece. -/
theorem decodePieces_flatMap (pieces : List (LiteralPiece quote)) :
    decodePieces quote (pieces.flatMap LiteralPiece.spelling) =
      pieces.mapM fun piece => pointOf piece.point := by
  induction pieces with
  | nil => rw [List.flatMap_nil, decodePieces, List.mapM_nil]; rfl
  | cons piece rest inductionHypothesis =>
    rw [List.flatMap_cons, decodePieces_spelling mark, inductionHypothesis, List.mapM_cons]
    cases pointOf piece.point with
    | error fault => rfl
    | ok char => cases rest.mapM fun piece => pointOf piece.point <;> rfl

end

/-- What the decoder takes is a run of pieces. -/
theorem exists_pieces_of_decodePieces {quote : Char} {body : List Char} {value : List Point}
    (decoded : decodePieces quote body = .ok value) :
    ∃ pieces : List (LiteralPiece quote), body = pieces.flatMap LiteralPiece.spelling ∧
      value.map Point.number = pieces.map LiteralPiece.point := by
  have run := decodes quote body
  rw [decoded] at run
  clear decoded
  generalize same : Except.ok value = result at run
  induction run generalizing value with
  | nil =>
    obtain rfl := Except.ok.inj same
    exact ⟨[], rfl, rfl⟩
  | stray => nomatch same
  | faulty => nomatch same
  | escaped _ read _ inductionHypothesis =>
    obtain ⟨others, decodedRest, rfl⟩ := map_eq_ok.mp same.symm
    obtain ⟨piece, spelled, number⟩ := exists_piece_of_escape quote read
    obtain ⟨pieces, isRest, numbers⟩ := inductionHypothesis decodedRest.symm
    refine ⟨piece :: pieces, ?_, ?_⟩
    · rw [spelled, isRest, List.flatMap_cons]
    · rw [List.map_cons, List.map_cons, numbers, number]
  | @plain char rest _ goesOn noEscape _ inductionHypothesis =>
    obtain ⟨others, decodedRest, rfl⟩ := map_eq_ok.mp same.symm
    obtain ⟨inLine, other⟩ := not_or.mp goesOn
    obtain ⟨pieces, isRest, numbers⟩ := inductionHypothesis decodedRest.symm
    refine ⟨.plain char other inLine noEscape :: pieces, ?_, ?_⟩
    · rw [isRest, List.flatMap_cons]
      rfl
    · rw [List.map_cons, List.map_cons, numbers]
      rfl

/-! ### Literals -/

section

variable {quote : Char}

/-- The literal that the pieces spell. -/
def literalOf (pieces : List (LiteralPiece quote)) : String :=
  String.ofList (quote :: (pieces.flatMap LiteralPiece.spelling ++ [quote]))

/-- The text of the code points that the pieces denote. -/
def denoted (pieces : List (LiteralPiece quote)) : Text :=
  .ofPoints (pieces.filterMap fun piece => Point.ofNat? piece.point)

/-- Each piece denotes a code point, and between single quotes there is just one. -/
structure HasValue (pieces : List (LiteralPiece quote)) : Prop where
  inRange : ∀ piece ∈ pieces, piece.point ≤ 0x10FFFF
  single : quote = '\'' → pieces.length = 1

/-- The code points of which these are the numbers. -/
theorem filterMap_ofNat? {pieces : List (LiteralPiece quote)} {value : List Point}
    (numbers : value.map Point.number = pieces.map LiteralPiece.point) :
    (pieces.filterMap fun piece => Point.ofNat? piece.point) = value := by
  have own : Point.ofNat? ∘ Point.number = some :=
    funext fun point => Point.ofNat?_eq_some.mpr rfl
  calc (pieces.filterMap fun piece => Point.ofNat? piece.point)
      = (pieces.map LiteralPiece.point).filterMap Point.ofNat? := by
        rw [List.filterMap_map]
        rfl
    _ = value.filterMap (Point.ofNat? ∘ Point.number) := by rw [← numbers, List.filterMap_map]
    _ = value := by rw [own, List.filterMap_some]

theorem exists_value {pieces : List (LiteralPiece quote)}
    (inRange : ∀ piece ∈ pieces, piece.point ≤ 0x10FFFF) :
    ∃ value : List Point, value.map Point.number = pieces.map LiteralPiece.point := by
  have each : pieces.map LiteralPiece.point ∈ Set.range (List.map Point.number) := by
    rw [Set.range_list_map]
    intro number member
    obtain ⟨piece, inside, rfl⟩ := List.mem_map.mp member
    cases found : Point.ofNat? piece.point with
    | none =>
      have beyond := Point.ofNat?_eq_none.mp found
      have le := inRange piece inside
      omega
    | some point => exact ⟨point, Point.ofNat?_eq_some.mp found⟩
  exact each

theorem mapM_pointOf {pieces : List (LiteralPiece quote)} {value : List Point}
    (numbers : value.map Point.number = pieces.map LiteralPiece.point) :
    (pieces.mapM fun piece => pointOf piece.point) = .ok value := by
  induction pieces generalizing value with
  | nil =>
    obtain rfl := List.map_eq_nil_iff.mp numbers
    rw [List.mapM_nil]
    rfl
  | cons piece rest inductionHypothesis =>
    obtain ⟨point, others, rfl, number, numbers⟩ := List.map_eq_cons_iff.mp numbers
    rw [List.mapM_cons, pointOf_eq_ok.mpr number, inductionHypothesis numbers]
    rfl

theorem inRange_of_numbers {pieces : List (LiteralPiece quote)} {value : List Point}
    (numbers : value.map Point.number = pieces.map LiteralPiece.point) :
    ∀ piece ∈ pieces, piece.point ≤ 0x10FFFF := by
  intro piece member
  have listed : piece.point ∈ value.map Point.number := numbers ▸ List.mem_map_of_mem member
  obtain ⟨point, -, same⟩ := List.mem_map.mp listed
  exact same ▸ Nat.le_of_lt_succ point.number_lt

variable (mark : quote = '"' ∨ quote = '\'')
include mark

/-- Every character is denoted by a piece: by itself, or by an escape of one letter. -/
theorem exists_piece_of_char (char : Char) :
    ∃ piece : LiteralPiece quote, piece.point = char.toNat := by
  have listed : (quote, quote) ∈ letterEscapes := by rcases mark with rfl | rfl <;> decide
  by_cases own : char = quote
  · subst own
    exact ⟨.letter _ _ listed, rfl⟩
  by_cases newline : char = '\n'
  · subst newline
    exact ⟨.letter 'n' _ (by decide), rfl⟩
  by_cases backslash : char = '\\'
  · subst backslash
    exact ⟨.letter '\\' _ (by decide), rfl⟩
  · exact ⟨.plain char own newline backslash, rfl⟩

omit mark in
/-- A surrogate is denoted by an escape of four digits. -/
theorem exists_piece_of_half (offset : Fin 0x800) :
    ∃ piece : LiteralPiece quote, piece.point = 0xD800 + offset := by
  have below := offset.isLt
  have digits : ∀ number : Nat, number < 0x10000 →
      Nat.ofDigits 16 [number % 16, number / 16 % 16, number / 256 % 16, number / 4096 % 16] =
        number := by
    intro number less
    simp only [Nat.ofDigits_cons, Nat.ofDigits_nil]
    omega
  let digit (number : Nat) : HexDigit := ⟨Fin.ofNat 16 number, true⟩
  let number : Nat := 0xD800 + offset
  refine ⟨.hex 'u' [digit (number / 4096), digit (number / 256), digit (number / 16),
    digit number] (List.mem_of_elem_eq_true rfl), ?_⟩
  exact digits number (by omega)

theorem exists_pieces_of_value (value : List Point) :
    ∃ pieces : List (LiteralPiece quote),
      value.map Point.number = pieces.map LiteralPiece.point := by
  have each : value.map Point.number ∈ Set.range (List.map (@LiteralPiece.point quote)) := by
    rw [Set.range_list_map]
    rintro number member
    obtain ⟨point, -, rfl⟩ := List.mem_map.mp member
    cases point with
    | char char => exact exists_piece_of_char mark char
    | half offset => exact exists_piece_of_half offset
  obtain ⟨pieces, same⟩ := each
  exact ⟨pieces, same.symm⟩

theorem unquoteList_quoted (body : List Char) :
    unquoteList (quote :: (body ++ [quote])) = (decodePieces quote body).bind fun value =>
      if quote = '\'' ∧ value.length ≠ 1 then .error .notOneRune else .ok value := by
  rw [unquoteList_concat, if_pos rfl]
  rcases mark with rfl | rfl
  · rw [if_neg (by decide), if_pos rfl]
    cases decodePieces '"' body <;> rfl
  · rw [if_neg (by decide), if_neg (by decide), if_pos rfl]
    cases decodePieces '\'' body with
    | error fault => rfl
    | ok value => by_cases one : value.length = 1 <;> simp [Except.bind, one]

theorem unquote_of_numbers {pieces : List (LiteralPiece quote)} {value : List Point}
    (numbers : value.map Point.number = pieces.map LiteralPiece.point)
    (single : quote = '\'' → value.length = 1) :
    unquote (literalOf pieces) = .ok (.ofPoints value) := by
  have one : ¬(quote = '\'' ∧ value.length ≠ 1) := fun ⟨isSingle, many⟩ => many (single isSingle)
  rw [unquote_eq_ok, literalOf, String.toList_ofList, unquoteList_quoted mark,
    decodePieces_flatMap mark, mapM_pointOf numbers, Text.points_ofPoints]
  exact if_neg one

theorem unquote_literalOf {pieces : List (LiteralPiece quote)} (has : HasValue pieces) :
    unquote (literalOf pieces) = .ok (denoted pieces) := by
  obtain ⟨value, numbers⟩ := exists_value has.inRange
  have lengths := congrArg List.length numbers
  rw [List.length_map, List.length_map] at lengths
  rw [denoted, filterMap_ofNat? numbers]
  exact unquote_of_numbers mark numbers fun isSingle => lengths.trans (has.single isSingle)

theorem exists_pieces_of_unquote {text : String} {value : Text}
    (starts : text.toList.head? = some quote) (decoded : unquote text = .ok value) :
    ∃ pieces : List (LiteralPiece quote), HasValue pieces ∧ text = literalOf pieces ∧
      value = denoted pieces := by
  rw [unquote_eq_ok] at decoded
  obtain ⟨rest, whole⟩ := List.head?_eq_some_iff.mp starts
  rw [whole] at decoded
  rcases List.eq_nil_or_concat rest with rfl | ⟨body, last, rfl⟩
  · nomatch decoded
  rw [List.concat_eq_append] at decoded whole
  have closes : last = quote := by
    by_contra differ
    rw [unquoteList_concat, if_neg differ] at decoded
    nomatch decoded
  subst closes
  rw [unquoteList_quoted mark] at decoded
  obtain ⟨points, decodedBody, accepted⟩ := bind_eq_ok.mp decoded
  split at accepted
  · nomatch accepted
  next single =>
  obtain rfl := Except.ok.inj accepted
  obtain ⟨pieces, rfl, numbers⟩ := exists_pieces_of_decodePieces decodedBody
  have lengths := congrArg List.length numbers
  rw [List.length_map, List.length_map] at lengths
  refine ⟨pieces, ⟨inRange_of_numbers numbers, fun isSingle => ?_⟩, ?_, ?_⟩
  · rw [← lengths]
    by_contra many
    exact single ⟨isSingle, many⟩
  · rw [literalOf, ← whole, String.ofList_toList]
  · rw [denoted, filterMap_ofNat? numbers, Text.ofPoints_points]

end

/-- Literals are decoded exactly: a literal whose pieces denote code points has the text of these
as its value, whatever starts with a quote and has a value is such a literal, and the decoder
refuses every other text. Every text is the value of a literal in double quotes, and every single
code point that of one in single quotes. -/
theorem unquote_exact {quote : Char} (mark : quote = '"' ∨ quote = '\'') :
    (∀ pieces : List (LiteralPiece quote), HasValue pieces →
        unquote (literalOf pieces) = .ok (denoted pieces)) ∧
      (∀ (text : String) (value : Text), text.toList.head? = some quote →
        unquote text = .ok value →
        ∃ pieces : List (LiteralPiece quote), HasValue pieces ∧ text = literalOf pieces ∧
          value = denoted pieces) ∧
      (∀ text : String, text.toList.head? = some quote →
        (∀ pieces : List (LiteralPiece quote), HasValue pieces → text ≠ literalOf pieces) →
          ∃ fault, unquote text = .error fault) ∧
      ∀ value : Text, (quote = '\'' → value.points.length = 1) →
        ∃ pieces : List (LiteralPiece quote), unquote (literalOf pieces) = .ok value := by
  refine ⟨fun pieces => unquote_literalOf mark,
    fun text value => exists_pieces_of_unquote mark, ?_, ?_⟩
  · intro text starts other
    cases decoded : unquote text with
    | error fault => exact ⟨fault, rfl⟩
    | ok value =>
      obtain ⟨pieces, has, same, -⟩ := exists_pieces_of_unquote mark starts decoded
      exact absurd same (other pieces has)
  · intro value single
    obtain ⟨pieces, numbers⟩ := exists_pieces_of_value mark value.points
    refine ⟨pieces, ?_⟩
    rw [unquote_of_numbers mark numbers single, Text.ofPoints_points]

/-- The statement at a literal with a piece of each kind, at the literal of a quote, at a text in
which the last quote belongs to an escape, and at a character. -/
theorem unquote_exact_each_kind :
    let pieces : List (LiteralPiece '"') := [.plain 'a' (by decide) (by decide) (by decide),
      .letter 't' '\t' (by decide), .octal [1, 0, 1] rfl,
      .hex 'u' [⟨0, false⟩, ⟨0, false⟩, ⟨14, true⟩, ⟨9, false⟩] (by decide)]
    (HasValue pieces ∧ literalOf pieces = "\"a\\t\\101\\u00E9\"" ∧
        unquote (literalOf pieces) = .ok ↑"a\tAé") ∧
      (unquote "\"\\\"\"" = .ok ↑"\"" ∧ ∃ pieces : List (LiteralPiece '"'), HasValue pieces ∧
        "\"\\\"\"" = literalOf pieces ∧ ↑"\"" = denoted pieces) ∧
      ((∀ pieces : List (LiteralPiece '"'), HasValue pieces → "\"a\\\"" ≠ literalOf pieces) ∧
        ∃ fault, unquote "\"a\\\"" = .error fault) ∧
      (Text.plain "é").points.length = 1 ∧
        ∃ pieces : List (LiteralPiece '\''), unquote (literalOf pieces) = .ok ↑"é" := by
  intro pieces
  have double := @unquote_exact '"' (Or.inl rfl)
  have single := @unquote_exact '\'' (Or.inr rfl)
  have has : HasValue pieces := ⟨by decide +kernel, nofun⟩
  have quoted : unquote "\"\\\"\"" = .ok ↑"\"" := eq_ok_of_toOption (by decide +kernel)
  have refused : (unquote "\"a\\\"").toOption = none := by decide +kernel
  have other : ∀ pieces : List (LiteralPiece '"'), HasValue pieces →
      "\"a\\\"" ≠ literalOf pieces := by
    rintro pieces has same
    rw [same, double.1 pieces has] at refused
    nomatch refused
  refine ⟨⟨has, by decide +kernel, ?_⟩, ⟨quoted, double.2.1 _ _ (by decide +kernel) quoted⟩,
    ⟨other, double.2.2.1 _ (by decide +kernel) other⟩, by decide +kernel,
    single.2.2.2 ↑"é" fun _ => by decide +kernel⟩
  rw [double.1 pieces has]
  exact congrArg Except.ok (by decide +kernel)

end GoApiDoc.Go
