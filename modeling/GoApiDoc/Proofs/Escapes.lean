/-
This file says which escapes of a literal give its decoding a fault of their number. An escape with
hexadecimal digits names a code point. The decoder stops at the first one whose number has none, so
whenever it ends with such a fault, an escape of that number is in the literal: only eight digits
reach a number that has more than 31 bits.

The decoder goes on behind the digits of an escape, while the list of escapes goes on behind its
letter. That makes no difference: no digit is a backslash, and an escape starts with one.
-/

import GoApiDoc.Proofs.Literals
import Mathlib.Algebra.Group.Nat.Defs

namespace GoApiDoc.Go

open Text

/-! ### The escapes of a text -/

/-- The number of an escape with this letter in front of this text. -/
def escapeNumber (letter : Char) (rest : List Char) : Option Nat :=
  (hexWidth letter).bind fun width => (digitRun isHexDigit width rest).map (numberOf 16)

/-- The escapes that name a code point in hexadecimal digits: letter and number. A backslash takes
the next character with it, as it does for the lexer. -/
def numericEscapes : List Char → List (Char × Nat)
  | first :: letter :: rest =>
    if first = '\\' then
      (escapeNumber letter rest).toList.map (letter, ·) ++ numericEscapes rest
    else numericEscapes (letter :: rest)
  | _ => []

theorem numericEscapes_plain {first : Char} (other : first ≠ '\\') (rest : List Char) :
    numericEscapes (first :: rest) = numericEscapes rest := by
  cases rest with
  | nil => rfl
  | cons letter rest => rw [numericEscapes, if_neg other]

theorem numericEscapes_escape (letter : Char) (rest : List Char) :
    numericEscapes ('\\' :: letter :: rest) =
      (escapeNumber letter rest).toList.map (letter, ·) ++ numericEscapes rest := by
  rw [numericEscapes, if_pos rfl]

theorem numericEscapes_drop {count : Nat} {text : List Char}
    (noEscape : ∀ char ∈ text.take count, char ≠ '\\') :
    numericEscapes (text.drop count) = numericEscapes text := by
  induction count generalizing text with
  | zero => rfl
  | succ count inductionHypothesis =>
    cases text with
    | nil => rfl
    | cons char text =>
      rw [List.take_succ_cons, List.forall_mem_cons] at noEscape
      rw [List.drop_succ_cons, numericEscapes_plain noEscape.1, inductionHypothesis noEscape.2]

/-! ### The size of the numbers -/

theorem hexValue_lt {digit : Char} {value : Nat} (found : hexValue digit = some value) :
    value < 16 := by
  unfold hexValue at found
  split at found
  · next decimal =>
    simp only [isAsciiDigit, Bool.and_eq_true, decide_eq_true_eq, Char.le_def] at decimal
    have high : digit.toNat ≤ 57 := decimal.2
    have zero : '0'.toNat = 48 := rfl
    obtain rfl := Option.some.inj found
    omega
  split at found
  · next lower =>
    simp only [Bool.and_eq_true, decide_eq_true_eq, Char.le_def] at lower
    have high : digit.toNat ≤ 102 := lower.2
    have letter : 'a'.toNat = 97 := rfl
    obtain rfl := Option.some.inj found
    omega
  split at found
  · next upper =>
    simp only [Bool.and_eq_true, decide_eq_true_eq, Char.le_def] at upper
    have high : digit.toNat ≤ 70 := upper.2
    have letter : 'A'.toNat = 65 := rfl
    obtain rfl := Option.some.inj found
    omega
  · simp at found

theorem hexValue_of_isOctalDigit {digit : Char} (octal : isOctalDigit digit) :
    (hexValue digit).getD 0 < 8 := by
  simp only [isOctalDigit, Bool.and_eq_true, decide_eq_true_eq, Char.le_def] at octal
  have high : digit.toNat ≤ 55 := octal.2
  have low : 48 ≤ digit.toNat := octal.1
  have decimal : isAsciiDigit digit := by
    simp only [isAsciiDigit, Bool.and_eq_true, decide_eq_true_eq, Char.le_def]
    exact ⟨octal.1, Nat.le_trans high (by decide)⟩
  have zero : '0'.toNat = 48 := rfl
  rw [hexValue, if_pos decimal, Option.getD_some]
  omega

/-- A number has no more digits than it is written with. -/
theorem numberOf_lt {base : Nat} {digits : List Char}
    (small : ∀ digit ∈ digits, (hexValue digit).getD 0 < base) :
    numberOf base digits < base ^ digits.length := by
  have run : ∀ (digits : List Char) (start length : Nat), start < base ^ length →
      (∀ digit ∈ digits, (hexValue digit).getD 0 < base) →
      digits.foldl (fun value digit => value * base + (hexValue digit).getD 0) start <
        base ^ (length + digits.length) := by
    intro digits
    induction digits with
    | nil => exact fun start length less _ => less
    | cons digit digits inductionHypothesis =>
      intro start length less small
      rw [List.forall_mem_cons] at small
      have next : start * base + (hexValue digit).getD 0 < base ^ (length + 1) := by
        have whole : (start + 1) * base ≤ base ^ length * base := Nat.mul_le_mul_right base less
        rw [Nat.add_mul, Nat.one_mul] at whole
        rw [Nat.pow_succ]
        omega
      have behind := inductionHypothesis _ _ next small.2
      rw [List.foldl_cons, List.length_cons, Nat.add_comm digits.length, ← Nat.add_assoc]
      exact behind
  have whole := run digits 0 0 (by simp) small
  rw [Nat.zero_add] at whole
  exact whole

theorem pointOf_eq_escapeTooLarge {number : Nat}
    (failed : pointOf number = .error .escapeTooLarge) : 0x80000000 ≤ number := by
  unfold pointOf at failed
  split at failed
  · assumption
  · split at failed
    · nomatch failed
    · nomatch failed

/-- Three octal digits name a code point. -/
theorem pointOf_octal {text digits : List Char}
    (found : digitRun isOctalDigit 3 text = some digits) (fault : LiteralFault) :
    pointOf (numberOf 8 digits) ≠ .error fault := by
  obtain ⟨-, three, octal⟩ := digitRun_eq_some found
  have less := numberOf_lt fun digit member => hexValue_of_isOctalDigit (octal digit member)
  rw [three] at less
  rw [pointOf, if_neg (by omega)]
  cases none : Point.ofNat? (numberOf 8 digits) with
  | none =>
    have beyond := Point.ofNat?_eq_none.mp none
    omega
  | some point => nofun

/-- The letter of an escape says how many digits its number has. -/
theorem escapeNumber_lt {letter : Char} {rest : List Char} {point : Nat}
    (found : escapeNumber letter rest = some point) :
    ∃ width, hexWidth letter = some width ∧ point < 16 ^ width := by
  obtain ⟨width, letters, digits⟩ := Option.bind_eq_some_iff.mp found
  obtain ⟨run, isRun, rfl⟩ := Option.map_eq_some_iff.mp digits
  obtain ⟨-, rfl, hexadecimal⟩ := digitRun_eq_some isRun
  refine ⟨_, letters, numberOf_lt fun digit member => ?_⟩
  obtain ⟨value, isValue⟩ := Option.isSome_iff_exists.mp (hexadecimal digit member)
  rw [isValue]
  exact hexValue_lt isValue

theorem mem_numericEscapes {text : List Char} {letter : Char} {point : Nat}
    (member : (letter, point) ∈ numericEscapes text) :
    ∃ rest, escapeNumber letter rest = some point := by
  fun_induction numericEscapes text with
  | case1 other rest inductionHypothesis =>
    rw [List.mem_append, List.mem_map] at member
    obtain ⟨number, isNumber, same⟩ | behind := member
    · obtain ⟨rfl, rfl⟩ := Prod.mk.inj same
      exact ⟨rest, Option.mem_toList.mp isNumber⟩
    · exact inductionHypothesis behind
  | case2 first letter rest noEscape inductionHypothesis => exact inductionHypothesis member
  | case3 => simp at member

/-- Only an escape of eight digits has a number of more than 31 bits. -/
theorem letter_of_large {text : List Char} {letter : Char} {point : Nat}
    (member : (letter, point) ∈ numericEscapes text) (large : 0x80000000 ≤ point) :
    letter = 'U' := by
  obtain ⟨rest, found⟩ := mem_numericEscapes member
  obtain ⟨width, letters, less⟩ := escapeNumber_lt found
  unfold hexWidth at letters
  split at letters
  · obtain rfl := Option.some.inj letters
    omega
  · obtain rfl := Option.some.inj letters
    omega
  · rfl
  · simp at letters

/-! ### Faults of a number -/

/-- An escape that cannot be decoded is wrong in its form, or it names no code point. -/
theorem escape_eq_error {letter : Char} {rest : List Char} {fault : LiteralFault}
    (failed : escape (letter :: rest) = .error fault) :
    fault = .badEscape ∨
      ∃ point, escapeNumber letter rest = some point ∧ pointOf point = .error fault := by
  unfold escape at failed
  simp only at failed
  split at failed
  · simp at failed
  split at failed
  · next width isWidth =>
    split at failed
    · next digits found =>
      exact Or.inr ⟨numberOf 16 digits, by simp [escapeNumber, isWidth, found],
        map_eq_error.mp failed⟩
    · exact Or.inl (Except.error.inj failed).symm
  · split at failed
    · next digits found => exact absurd (map_eq_error.mp failed) (pointOf_octal found fault)
    · exact Or.inl (Except.error.inj failed).symm

/-- A text that cannot be decoded is wrong in its form, or one of its escapes names no code
point. -/
theorem decodePieces_eq_error {quote : Char} {body : List Char} {fault : LiteralFault}
    (failed : decodePieces quote body = .error fault) :
    fault = .strayCharacter ∨ fault = .badEscape ∨
      ∃ escape ∈ numericEscapes body, pointOf escape.2 = .error fault := by
  have run := decodes quote body
  rw [failed] at run
  clear failed
  generalize same : Except.error fault = result at run
  induction run with
  | nil => nomatch same
  | stray => exact Or.inl (Except.error.inj same)
  | @faulty rest _ _ read =>
    obtain rfl := Except.error.inj same
    cases rest with
    | nil => exact Or.inr (Or.inl (Except.error.inj read).symm)
    | cons letter rest =>
      refine Or.inr ((escape_eq_error read).imp_right ?_)
      rintro ⟨number, isNumber, noPoint⟩
      refine ⟨(letter, number), ?_, noPoint⟩
      rw [numericEscapes_escape, isNumber]
      exact List.mem_append_left _ (List.mem_singleton.mpr rfl)
  | @escaped rest _ _ _ _ read _ inductionHypothesis =>
    refine (inductionHypothesis (map_eq_error.mp same.symm).symm).imp_right (Or.imp_right ?_)
    rintro ⟨number, member, noPoint⟩
    cases rest with
    | nil => nomatch read
    | cons letter rest =>
      obtain ⟨count, rfl, -, digits⟩ := escape_eq_ok read
      -- The decoder is behind the digits already, the escapes are listed from the letter on.
      rw [List.drop_succ_cons, numericEscapes_drop digits] at member
      refine ⟨number, ?_, noPoint⟩
      rw [numericEscapes_escape]
      exact List.mem_append_right _ member
  | plain _ noEscape _ inductionHypothesis =>
    rw [numericEscapes_plain noEscape]
    exact inductionHypothesis (map_eq_error.mp same.symm).symm

/-! ### Escapes of a token -/

/-- The escapes of a literal in quotes that name a code point in hexadecimal digits. A literal in
backquotes has none. -/
def Token.escapes (token : Token) : List (Char × Nat) :=
  if token.quote? = some backquote then []
  else numericEscapes (token.text.toList.drop 1).dropLast

/-- A literal with an escape too large to be a code point holds this escape. -/
theorem escapes_of_unquote {token : Token} (spelled : token.Spelled)
    (failed : unquote token.text = .error .escapeTooLarge) :
    ∃ escape ∈ token.escapes, pointOf escape.2 = .error .escapeTooLarge := by
  rw [unquote_eq_error] at failed
  unfold Token.Spelled at spelled
  unfold Token.escapes
  revert spelled failed
  generalize token.text.toList = text
  generalize token.quote? = quote
  intro spelled failed
  cases spelled with
  | @quoted quote body mark isBody =>
    have notRaw : quote ≠ backquote := by rcases mark with rfl | rfl <;> decide
    rw [if_neg (by simpa using notRaw), List.drop_succ_cons, List.drop_zero, List.dropLast_concat]
    have decoded : decodePieces quote body = .error .escapeTooLarge := by
      rw [unquoteList_concat, if_pos rfl, if_neg notRaw] at failed
      rcases mark with rfl | rfl
      · exact failed
      · obtain failed | ⟨value, -, failed⟩ := bind_eq_error.mp failed
        · exact failed
        · split at failed
          · nomatch failed
          · nomatch failed
    obtain stray | bad | found := decodePieces_eq_error decoded
    · nomatch stray
    · nomatch bad
    · exact found
  | @raw body free =>
    rw [unquoteList_concat, if_pos rfl, if_pos rfl] at failed
    simp at failed
  | bare full free =>
    have alone := unquoteList_of_bare (.bare full free) []
    rw [List.append_nil, failed] at alone
    nomatch alone

theorem letter_of_large_escape {token : Token} {letter : Char} {point : Nat}
    (member : (letter, point) ∈ token.escapes) (large : 0x80000000 ≤ point) : letter = 'U' := by
  unfold Token.escapes at member
  split at member
  · simp at member
  · exact letter_of_large member large

end GoApiDoc.Go
