/-
This file holds dates and times of day as YAML knows them, how they are read, and which of
them exist. A timestamp is a date, or a date and a time with an optional fraction and an
optional distance from universal time.
-/

import GoApiDoc.Text.Word

namespace GoApiDoc.Yaml

open Text

/-! ### Types -/

/-- A day of the calendar. -/
structure Date where
  year : Nat
  month : Nat
  day : Nat
  deriving DecidableEq, Repr

/-- A time on a day. `offset` is the distance from universal time in minutes, if it is
given. -/
structure DateTime where
  date : Date
  hour : Nat
  minute : Nat
  second : Nat
  microsecond : Nat
  offset : Option Int
  deriving DecidableEq, Repr

/-- A date alone or with a time. -/
inductive Timestamp
  | day (date : Date)
  | moment (time : DateTime)
  deriving DecidableEq, Repr

/-! ### What exists -/

/-- A year with a twenty-ninth of February. -/
def isLeap (year : Nat) : Bool :=
  year % 4 == 0 && (year % 100 != 0 || year % 400 == 0)

/-- The number of days in a month. -/
def daysIn (year month : Nat) : Nat :=
  match month with
  | 2 => if isLeap year then 29 else 28
  | 4 | 6 | 9 | 11 => 30
  | _ => 31

/-- A day that exists, in the years 1 to 9999. -/
def Date.exists (date : Date) : Bool :=
  1 ≤ date.year && date.year ≤ 9999 && 1 ≤ date.month && date.month ≤ 12 && 1 ≤ date.day &&
    date.day ≤ daysIn date.year date.month

/-- A time that exists on a day that exists, less than a day from universal time. -/
def DateTime.exists (time : DateTime) : Bool :=
  time.date.exists && time.hour < 24 && time.minute < 60 && time.second < 60 &&
    (match time.offset with
    | some offset => offset.natAbs < 1440
    | none => true)

/-- A timestamp that exists. -/
def Timestamp.exists : Timestamp → Bool
  | .day date => date.exists
  | .moment time => time.exists

/-! ### Instants -/

/-- The number of days before a year, from the year 1 on. -/
def daysBeforeYear (year : Nat) : Nat :=
  let past := year - 1
  past * 365 + past / 4 - past / 100 + past / 400

/-- The number of days before a month in its year. -/
def daysBeforeMonth (year : Nat) : Nat → Nat
  | 0 => 0
  | 1 => 0
  | month + 1 => daysBeforeMonth year month + daysIn year month

/-- The instant in microseconds, at the place where the offset is zero. -/
def DateTime.instant (time : DateTime) : Int :=
  let days := daysBeforeYear time.date.year + daysBeforeMonth time.date.year time.date.month +
    time.date.day
  let minutes : Int := (days * 24 + time.hour : Nat) * 60 + time.minute - time.offset.getD 0
  (minutes * 60 + time.second) * 1000000 + time.microsecond

/-- Whether two times are the same moment; a time with an offset is never the same as one
without. -/
def DateTime.same (first second : DateTime) : Bool :=
  first.offset.isSome == second.offset.isSome && first.instant == second.instant

/-! ### Reading -/

/-- The number that ASCII digits spell. -/
def decimalNumber (digits : List Char) : Nat :=
  digits.foldl (fun value digit => value * 10 + (digit.toNat - '0'.toNat)) 0

/-- A number of `least` to `most` digits that no digit follows, and how many digits it has;
with the rest of the text. -/
def digitField (least most : Nat) (text : List Char) : Option (Nat × Nat × List Char) :=
  let digits := text.takeWhile isAsciiDigit
  if least ≤ digits.length ∧ digits.length ≤ most then
    some (decimalNumber digits, digits.length, text.drop digits.length)
  else none

/-- The text behind one expected character. -/
def behind (expected : Char) : List Char → Option (List Char)
  | char :: rest => if char = expected then some rest else none
  | [] => none

/-- The distance from universal time that makes up the whole text; `none` within for a text
that gives none. -/
def zoneOf (text : List Char) : Option (Option Int) :=
  match text.dropWhile fun char => char == ' ' || char == '\t' with
  | [] => if text.isEmpty then some none else none
  | 'Z' :: [] => some (some 0)
  | sign :: rest =>
    if sign = '+' ∨ sign = '-' then do
      let (hours, _, rest) ← digitField 1 2 rest
      let minutes ← match rest with
        | [] => some 0
        | _ => do
          let (minutes, _, rest) ← digitField 2 2 (← behind ':' rest)
          if rest.isEmpty then some minutes else none
      let offset : Int := hours * 60 + minutes
      return some (if sign = '-' then -offset else offset)
    else none

/-- The microseconds that the digits of a fraction spell; further digits are dropped. -/
def microseconds (digits : List Char) : Nat :=
  let kept := digits.take 6
  decimalNumber kept * Nat.pow 10 (6 - kept.length)

/-- The time behind a date. -/
def timeOf (date : Date) (text : List Char) : Option DateTime := do
  let (hour, _, rest) ← digitField 1 2 text
  let (minute, _, rest) ← digitField 2 2 (← behind ':' rest)
  let (second, _, rest) ← digitField 2 2 (← behind ':' rest)
  let (fraction, rest) := match rest with
    | '.' :: rest => (rest.takeWhile isAsciiDigit, rest.dropWhile isAsciiDigit)
    | rest => ([], rest)
  let offset ← zoneOf rest
  return ⟨date, hour, minute, second, microseconds fraction, offset⟩

/-- Reads a timestamp; the flag tells whether month and day have two digits each. -/
def timestampOf (text : List Char) : Option (Timestamp × Bool) := do
  let (year, _, rest) ← digitField 4 4 text
  let (month, monthDigits, rest) ← digitField 1 2 (← behind '-' rest)
  let (day, dayDigits, rest) ← digitField 1 2 (← behind '-' rest)
  let date : Date := ⟨year, month, day⟩
  let full := monthDigits == 2 && dayDigits == 2
  match rest with
  | [] => return (.day date, full)
  | separator :: rest =>
    if separator = 'T' ∨ separator = 't' then
      return (.moment (← timeOf date rest), full)
    else if separator = ' ' ∨ separator = '\t' then
      let clock := rest.dropWhile fun char => char == ' ' || char == '\t'
      return (.moment (← timeOf date clock), full)
    else none

/-! ### Writing -/

/-- A number filled with zeros to a width. -/
def padded (width number : Nat) : String :=
  let digits := Nat.toDigits 10 number
  String.ofList (List.replicate (width - digits.length) '0' ++ digits)

/-- Year, month and day with hyphens between them. -/
def Date.text (date : Date) : String :=
  padded 4 date.year ++ "-" ++ padded 2 date.month ++ "-" ++ padded 2 date.day

/-- The distance from universal time as hours and minutes with a sign. -/
def offsetText (offset : Int) : String :=
  (if offset < 0 then "-" else "+") ++ padded 2 (offset.natAbs / 60) ++ ":" ++
    padded 2 (offset.natAbs % 60)

/-- Date and time with a T between them, microseconds only if there are any; the offset is
written by `zone`. -/
def DateTime.textWith (zone : Int → String) (time : DateTime) : String :=
  time.date.text ++ "T" ++ padded 2 time.hour ++ ":" ++ padded 2 time.minute ++ ":" ++
    padded 2 time.second ++
    (if time.microsecond = 0 then "" else "." ++ padded 6 time.microsecond) ++
    ((time.offset.map zone).getD "")

/-- The text of a time, with its offset in figures. -/
def DateTime.text (time : DateTime) : String :=
  time.textWith offsetText

end GoApiDoc.Yaml
