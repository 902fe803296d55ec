/-
Module: PassageMarkup.Text.Quoted
Layer: Text
Purpose: Quoted texts, as error messages and token listings show them: in double quotes, with a
  backslash in front of a quote or a backslash, the letters n, r, t and the digit 0 for the common
  controls, and the code point in braces for every other character that cannot be shown.
Imports: Text.Printable
Main exports: hexDigits, quoteChar, quote
-/
import PassageMarkup.Text.Printable

namespace PassageMarkup.Text

/-- A code point in lower case hexadecimal digits, without leading zeros. -/
def hexDigits (n : Nat) : List Char :=
  Nat.toDigits 16 n

/-- One character inside a quoted text. -/
def quoteChar (c : Char) : List Char :=
  if c = '"' then ['\\', '"']
  else if c = '\\' then ['\\', '\\']
  else if c = '\n' then ['\\', 'n']
  else if c = '\r' then ['\\', 'r']
  else if c = '\t' then ['\\', 't']
  else if c = Char.ofNat 0 then ['\\', '0']
  else if isPrintable c then [c]
  else ['\\', 'u', '\x7b'] ++ hexDigits c.toNat ++ ['\x7d']

/-- A text in double quotes. -/
def quote (text : String) : String :=
  String.ofList ('"' :: text.toList.flatMap quoteChar ++ ['"'])

end PassageMarkup.Text
