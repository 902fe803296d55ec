/-
Module: PassageMarkup.Config.Toml.Text
Layer: Config
Purpose: The texts of a TOML document: what separates its parts, and its four kinds of strings. A reader
  takes the characters from one place on and gives what it read with the characters that are left, or
  nothing where the document is malformed.
Imports: Number.Decimal, Text.Blank
Main exports: expect?, newline?, lineEnd?, readString?
-/
import PassageMarkup.Number.Decimal
import PassageMarkup.Text.Blank

namespace PassageMarkup.Toml

open Text

/-- Read one expected character. -/
def expect? (mark : Char) : List Char → Option (List Char)
  | c :: cs => if c = mark then some cs else none
  | [] => none

/-- The characters behind a line end, if there is one in front. -/
def newline? : List Char → Option (List Char)
  | '\n' :: cs => some cs
  | '\r' :: '\n' :: cs => some cs
  | _ => none

/-- Whether a character may stand in a comment or in a string on one line. -/
def isLineChar (c : Char) : Bool :=
  c == '\t' || (0x20 ≤ c.toNat && c.toNat != 0x7F)

/-- Skip a comment in front, up to the end of its line. -/
def skipComment (cs : List Char) : List Char :=
  match cs with
  | '#' :: rest => rest.dropWhile isLineChar
  | _ => cs

/-- The characters behind the end of a line, which may have spaces and a comment before it. -/
def lineEnd? (cs : List Char) : Option (List Char) :=
  match skipComment (skipSpace cs) with
  | [] => some []
  | rest => newline? rest

/-- Skip line ends, and before each of them and at the end what `skip` skips within a line. -/
def skipEnds (skip : List Char → List Char) : (steps : Nat) → List Char → List Char
  | 0, cs => cs
  | steps + 1, cs =>
      match newline? (skip cs) with
      | some later => skipEnds skip steps later
      | none => skip cs

/-- Skip spaces, comments and line ends. -/
def skipLines (cs : List Char) : List Char :=
  skipEnds (fun line => skipComment (skipSpace line)) (cs.length + 1) cs

/-- Skip spaces and line ends. -/
def skipLayout (cs : List Char) : List Char :=
  skipEnds skipSpace (cs.length + 1) cs

/-- The character with a code point spelled in hexadecimal digits. -/
def charOfHex? (digits : List Char) : Option Char :=
  match Number.ofDigits? 16 digits with
  | none => none
  | some n => if n < 0xD800 ∨ (0xDFFF < n ∧ n < 0x110000) then some (Char.ofNat n) else none

/-- Read what follows a backslash. -/
def readEscape? : List Char → Option (Char × List Char)
  | 'b' :: cs => some (Char.ofNat 0x08, cs)
  | 't' :: cs => some ('\t', cs)
  | 'n' :: cs => some ('\n', cs)
  | 'f' :: cs => some (Char.ofNat 0x0C, cs)
  | 'r' :: cs => some ('\r', cs)
  | '"' :: cs => some ('"', cs)
  | '\\' :: cs => some ('\\', cs)
  | 'u' :: cs =>
      if cs.length < 4 then none else (charOfHex? (cs.take 4)).map fun c => (c, cs.drop 4)
  | 'U' :: cs =>
      if cs.length < 8 then none else (charOfHex? (cs.take 8)).map fun c => (c, cs.drop 8)
  | _ => none

/-- Put a character before what the rest reads as. -/
def before (c : Char) (rest : Option (List Char × List Char)) : Option (List Char × List Char) :=
  rest.map fun (text, left) => (c :: text, left)

/-- Read a string with escapes on one line, behind its opening quote. -/
def readBasic? : (steps : Nat) → List Char → Option (List Char × List Char)
  | 0, _ => none
  | _ + 1, [] => none
  | _ + 1, '"' :: cs => some ([], cs)
  | steps + 1, '\\' :: cs => do
      let (c, rest) ← readEscape? cs
      before c (readBasic? steps rest)
  | steps + 1, c :: cs => if isLineChar c then before c (readBasic? steps cs) else none

/-- Read a string without escapes on one line, behind its opening quote. -/
def readPlain? (cs : List Char) : Option (List Char × List Char) :=
  match cs.dropWhile fun c => isLineChar c && c != '\x27' with
  | '\x27' :: rest => some (cs.takeWhile fun c => isLineChar c && c != '\x27', rest)
  | _ => none

/-- Up to two quotes that stand directly before the closing ones belong to the string. -/
def closingQuotes (mark : Char) : List Char → List Char × List Char
  | a :: b :: cs =>
      if a = mark ∧ b = mark then ([a, b], cs)
      else if a = mark then ([a], b :: cs)
      else ([], a :: b :: cs)
  | [a] => if a = mark then ([a], []) else ([], [a])
  | [] => ([], [])

/-- Whether a line ends here, apart from spaces: then a backslash joins it with what follows. -/
def joinedLine? (cs : List Char) : Option (List Char) :=
  newline? (skipSpace cs)

/-- Read a string of several lines behind its opening quotes, with or without escapes. -/
def readLong? (mark : Char) (escapes : Bool) :
    (steps : Nat) → List Char → Option (List Char × List Char)
  | 0, _ => none
  | _ + 1, [] => none
  | steps + 1, c :: cs =>
      if (c :: cs).take 3 == [mark, mark, mark] then
        let (quotes, rest) := closingQuotes mark (cs.drop 2)
        some (quotes, rest)
      else if escapes && c == '\\' then
        match joinedLine? cs with
        | some rest => readLong? mark escapes steps (skipLayout rest)
        | none => do
            let (escaped, rest) ← readEscape? cs
            before escaped (readLong? mark escapes steps rest)
      else
        match newline? (c :: cs) with
        | some rest => before '\n' (readLong? mark escapes steps rest)
        | none => if isLineChar c then before c (readLong? mark escapes steps cs) else none

/-- Drop a line end right behind the opening quotes. -/
def dropFirstLineEnd (cs : List Char) : List Char :=
  (newline? cs).getD cs

/-- Read a string of any kind. -/
def readString? (cs : List Char) : Option (String × List Char) :=
  let read : Option (List Char × List Char) :=
    match cs with
    | '"' :: '"' :: '"' :: rest => readLong? '"' true (rest.length + 1) (dropFirstLineEnd rest)
    | '\x27' :: '\x27' :: '\x27' :: rest =>
        readLong? '\x27' false (rest.length + 1) (dropFirstLineEnd rest)
    | '"' :: rest => readBasic? (rest.length + 1) rest
    | '\x27' :: rest => readPlain? rest
    | _ => none
  read.map fun (text, left) => (String.ofList text, left)

end PassageMarkup.Toml
