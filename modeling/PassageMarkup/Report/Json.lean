/-
Module: PassageMarkup.Report.Json
Layer: Report
Purpose: Data as JSON text, one item or field to a line, indented by two spaces. Controls, quotes and
  backslashes are escaped, everything else stands as it is; a number that JSON cannot write is null.
Imports: Report.Data
Main exports: jsonStyle, jsonString, Data.toJson
-/
import PassageMarkup.Report.Data

namespace PassageMarkup

open Number

/-- Numbers in JSON: in full from 0.00001 up to sixteen digits, whole numbers with `.0`, and a sign
before every exponent. -/
def jsonStyle : NumeralStyle :=
  ⟨some (-5, 15), true, true, .toEven, "null", "null", "null"⟩

/-- A hexadecimal digit in lower case. -/
def lowerHexDigit (n : Nat) : Char :=
  Nat.digitChar (n % 16)

/-- One character inside a JSON string. -/
def jsonChar (c : Char) : List Char :=
  if c = '"' then ['\\', '"']
  else if c = '\\' then ['\\', '\\']
  else if c = '\n' then ['\\', 'n']
  else if c = '\r' then ['\\', 'r']
  else if c = '\t' then ['\\', 't']
  else if c.toNat = 0x08 then ['\\', 'b']
  else if c.toNat = 0x0C then ['\\', 'f']
  else if c.toNat < 0x20 then
    ['\\', 'u', '0', '0', lowerHexDigit (c.toNat / 16), lowerHexDigit c.toNat]
  else [c]

/-- A text as a JSON string. -/
def jsonString (text : String) : String :=
  String.ofList ('"' :: text.toList.flatMap jsonChar ++ ['"'])

/-- The start of a line at some depth of nesting. -/
def jsonIndent (depth : Nat) : String :=
  String.ofList (List.replicate (2 * depth) ' ')

mutual

/-- Data as JSON text, at some depth of nesting. -/
def Data.jsonAt (depth : Nat) : Data → String
  | .boolean value => if value then "true" else "false"
  | .integer value => toString value
  | .real value => value.numeral jsonStyle
  | .text value => jsonString value
  | .list [] => "[]"
  | .list items => "[\n" ++ jsonItems depth items ++ jsonIndent depth ++ "]"
  | .record [] => "\x7b\x7d"
  | .record fields => "\x7b\n" ++ jsonFields depth fields ++ jsonIndent depth ++ "\x7d"

/-- The lines of the items of a list. -/
def jsonItems (depth : Nat) : List Data → String
  | [] => ""
  | item :: rest =>
      jsonIndent (depth + 1) ++ item.jsonAt (depth + 1) ++ (if rest.isEmpty then "\n" else ",\n") ++
        jsonItems depth rest

/-- The lines of the fields of a record. -/
def jsonFields (depth : Nat) : List (String × Data) → String
  | [] => ""
  | (name, value) :: rest =>
      jsonIndent (depth + 1) ++ jsonString name ++ ": " ++ value.jsonAt (depth + 1) ++
        (if rest.isEmpty then "\n" else ",\n") ++ jsonFields depth rest

end

/-- Data as JSON text, without a line feed at its end. -/
def Data.toJson (data : Data) : String :=
  data.jsonAt 0

end PassageMarkup
