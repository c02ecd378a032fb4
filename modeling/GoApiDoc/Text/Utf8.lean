/-
This file reads bytes as UTF-8. A failure names the first byte that cannot be read, how many
bytes are at fault and why, because the message of a source file that is no text is made of
these. Overlong forms, surrogates and points beyond the last one are refused at the first
byte that rules them out.
-/

import GoApiDoc.Text.Quoted

namespace GoApiDoc.Text.Utf8

/-! ### Faults -/

/-- Why a byte cannot be read. -/
inductive Reason
  | start
  | continuation
  | cutShort
  deriving DecidableEq, Repr

/-- Where reading stopped: the position of the first byte at fault, that byte, the number of
bytes at fault, and the reason. -/
structure Fault where
  position : Nat
  byte : UInt8
  count : Nat
  reason : Reason
  deriving DecidableEq, Repr

/-- The reason in words. -/
def Reason.message : Reason → String
  | .start => "invalid start byte"
  | .continuation => "invalid continuation byte"
  | .cutShort => "unexpected end of data"

/-- The fault in words: a single byte is shown, several by their positions. -/
def Fault.message (fault : Fault) : String :=
  let place :=
    if fault.count = 1 then
      "byte 0x" ++ String.ofList (hexDigits 2 fault.byte.toNat) ++ " in position " ++
        toString fault.position
    else
      "bytes in position " ++ toString fault.position ++ "-" ++
        toString (fault.position + fault.count - 1)
  "'utf-8' codec can't decode " ++ place ++ ": " ++ fault.reason.message

/-! ### One character -/

/-- A byte that may follow the first one of a character. -/
def isContinuation (byte : UInt8) : Bool :=
  0x80 ≤ byte && byte < 0xC0

/-- Whether `second` may follow `lead` in a character of three bytes. -/
def allowsSecondOfThree (lead second : UInt8) : Bool :=
  isContinuation second &&
    (if lead == 0xE0 then 0xA0 ≤ second else if lead == 0xED then second < 0xA0 else true)

/-- Whether `second` may follow `lead` in a character of four bytes. -/
def allowsSecondOfFour (lead second : UInt8) : Bool :=
  isContinuation second &&
    (if lead == 0xF0 then 0x90 ≤ second else if lead == 0xF4 then second < 0x90 else true)

/-- The code point whose first bits are `lead` and which `bytes` continue, six bits each. -/
def codePoint (lead : Nat) (bytes : List UInt8) : Nat :=
  bytes.foldl (fun value byte => value * 64 + (byte.toNat - 0x80)) lead

/-- Reads the character that starts with `lead`: the character and the number of bytes it
takes from `rest`, or the reason it is none and the number of bytes at fault. -/
def readChar (lead : UInt8) (rest : List UInt8) : Except (Reason × Nat) (Char × Nat) :=
  if lead < 0x80 then .ok (Char.ofNat lead.toNat, 0)
  else if lead < 0xC2 then .error (.start, 1)
  else if lead < 0xE0 then
    match rest with
    | [] => .error (.cutShort, 1)
    | second :: _ =>
      if isContinuation second then .ok (Char.ofNat (codePoint (lead.toNat - 0xC0) [second]), 1)
      else .error (.continuation, 1)
  else if lead < 0xF0 then
    match rest with
    | [] => .error (.cutShort, 1)
    | second :: rest =>
      if !allowsSecondOfThree lead second then .error (.continuation, 1)
      else
        match rest with
        | [] => .error (.cutShort, 2)
        | third :: _ =>
          if isContinuation third then
            .ok (Char.ofNat (codePoint (lead.toNat - 0xE0) [second, third]), 2)
          else .error (.continuation, 2)
  else if lead < 0xF5 then
    match rest with
    | [] => .error (.cutShort, 1)
    | second :: rest =>
      if !allowsSecondOfFour lead second then .error (.continuation, 1)
      else
        match rest with
        | [] => .error (.cutShort, 2)
        | third :: rest =>
          if !isContinuation third then .error (.continuation, 2)
          else
            match rest with
            | [] => .error (.cutShort, 3)
            | fourth :: _ =>
              if isContinuation fourth then
                .ok (Char.ofNat (codePoint (lead.toNat - 0xF0) [second, third, fourth]), 3)
              else .error (.continuation, 3)
  else .error (.start, 1)

/-! ### A whole text -/

/-- Reads the bytes that stand from `position` on. -/
def decodeFrom (position : Nat) (bytes : List UInt8) : Except Fault (List Char) :=
  match bytes with
  | [] => .ok []
  | lead :: rest =>
    match readChar lead rest with
    | .error (reason, count) => .error ⟨position, lead, count, reason⟩
    | .ok (char, extra) =>
      match decodeFrom (position + 1 + extra) (rest.drop extra) with
      | .error fault => .error fault
      | .ok chars => .ok (char :: chars)
termination_by bytes.length
decreasing_by all_goals (simp only [List.length_drop, List.length_cons]; omega)

/-- Reads bytes as UTF-8. -/
def decode (bytes : List UInt8) : Except Fault (List Char) :=
  decodeFrom 0 bytes

/-- The bytes of a text in UTF-8. -/
def encode (text : String) : List UInt8 :=
  text.toList.flatMap String.utf8EncodeChar

end GoApiDoc.Text.Utf8
