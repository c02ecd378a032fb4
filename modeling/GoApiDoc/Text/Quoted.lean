/-
This file shows a text inside a message: in single quotes, unless it holds a single quote and
no double quote, with the quote, the backslash and everything unprintable escaped. An escape
takes the shortest of the three hexadecimal forms that has room for the code point.
-/

import GoApiDoc.Text.Printable

namespace GoApiDoc.Text

/-- The digits of a number in lower case hexadecimal, filled with zeros to a width. -/
def hexDigits (width : Nat) (number : Nat) : List Char :=
  let digits := Nat.toDigits 16 number
  List.replicate (width - digits.length) '0' ++ digits

/-- How one character stands between the given quotes. -/
def quotedChar (quote : Char) (char : Char) : List Char :=
  if char == quote || char == '\\' then ['\\', char]
  else if char == '\n' then ['\\', 'n']
  else if char == '\r' then ['\\', 'r']
  else if char == '\t' then ['\\', 't']
  else if isPrintable char then [char]
  else if char.toNat < 0x100 then '\\' :: 'x' :: hexDigits 2 char.toNat
  else if char.toNat < 0x10000 then '\\' :: 'u' :: hexDigits 4 char.toNat
  else '\\' :: 'U' :: hexDigits 8 char.toNat

/-- The quote a text is shown in. -/
def quoteFor (text : List Char) : Char :=
  if text.contains '\'' && !text.contains '"' then '"' else '\''

/-- The text as a message shows it. -/
def quoted (text : String) : String :=
  let quote := quoteFor text.toList
  String.ofList (quote :: text.toList.flatMap (quotedChar quote) ++ [quote])

end GoApiDoc.Text
