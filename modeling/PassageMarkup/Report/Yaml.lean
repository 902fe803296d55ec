/-
Module: PassageMarkup.Report.Yaml
Layer: Report
Purpose: Data as YAML text in block style. A text is plain where nothing else could be read in its place,
  in single quotes where it could, in double quotes where it needs escapes, and a literal block where it
  has several lines. Items of a list stand under their key without further indentation.
Imports: Report.Data
Main exports: yamlStyle, readsOtherwise, ScalarStyle, scalarStyle, scalarLine, Data.toYaml
-/
import PassageMarkup.Report.Data

namespace PassageMarkup

open Number

/-- Numbers in YAML: in full from 0.00001 up to sixteen digits, whole numbers with `.0`. -/
def yamlStyle : NumeralStyle :=
  ⟨some (-5, 15), true, false, .toEven, ".nan", ".inf", "-.inf"⟩

namespace Yaml

/-- Texts that stand for null or a truth value. -/
def constantWords : List String :=
  ["null", "Null", "NULL", "~", "true", "True", "TRUE", "false", "False", "FALSE"]

/-- Texts that stand for a number that is infinite or undefined. -/
def specialNumbers : List String :=
  [".inf", ".Inf", ".INF", "+.inf", "+.Inf", "+.INF", "-.inf", "-.Inf", "-.INF", ".nan", ".NaN", ".NAN"]

/-- Whether digits of a base spell a number of at most `limit`. -/
def spellsAtMost (base limit : Nat) (digits : List Char) : Bool :=
  (ofDigits? base digits).any (· ≤ limit)

/-- Whether a text is a whole number in base 16, 8 or 2 that fits into 128 bits. -/
def isBasedInteger (cs : List Char) : Bool :=
  let (limit, digits) :=
    match cs with
    | '-' :: rest => (Nat.pow 2 127, rest)
    | '+' :: rest => (Nat.pow 2 128 - 1, rest)
    | rest => (Nat.pow 2 128 - 1, rest)
  match digits with
  | '0' :: 'x' :: rest => spellsAtMost 16 limit rest
  | '0' :: 'o' :: rest => spellsAtMost 8 limit rest
  | '0' :: 'b' :: rest => spellsAtMost 2 limit rest
  | _ => false

/-- Whether a text is made of digits behind a leading zero. -/
def isPaddedDigits (cs : List Char) : Bool :=
  match (splitSign cs).2 with
  | '0' :: rest => !rest.isEmpty && rest.all isAsciiDigit
  | _ => false

/-- Whether a text is a finite decimal numeral, with at most one sign. -/
def isDecimal (cs : List Char) : Bool :=
  let body :=
    match cs with
    | '+' :: rest => if (splitSign rest).2.length = rest.length then rest else []
    | _ => cs
  match Binary64.readChars? body with
  | some value => value.isFinite
  | none => false

/-- Whether a plain text would be read as something other than a text. -/
def readsOtherwise (text : String) : Bool :=
  text.isEmpty || constantWords.contains text || specialNumbers.contains text ||
    isBasedInteger text.toList || isPaddedDigits text.toList || isDecimal text.toList

/-- Whether a character breaks a line. -/
def isBreak (c : Char) : Bool :=
  [0x0A, 0x0D, 0x85, 0x2028, 0x2029].contains c.toNat

/-- Whether a character needs no escape. -/
def isPlainChar (c : Char) : Bool :=
  let n := c.toNat
  n == 0x0A || (0x20 ≤ n && n ≤ 0x7E) ||
    (0xA0 ≤ n && n != 0xFEFF && n != 0xFFFE && n != 0xFFFF)

/-- Whether a place is followed by a blank, a line break, a NUL or the end. -/
def blankAhead : List Char → Bool
  | [] => true
  | c :: _ => c == ' ' || c == '\t' || c.toNat == 0 || isBreak c

/-- A character that cannot start a plain text. -/
def startsMarkup (c : Char) : Bool :=
  "#,[]\x7b\x7d&*!|>'\"%@`".toList.contains c

/-- Whether a text, from some place behind its first character on, holds a mark that would be read as
the end of a key or the start of a comment. -/
def hasInnerMark (afterBlank : Bool) : List Char → Bool
  | [] => false
  | c :: cs =>
      (c == ':' && blankAhead cs) || (c == '#' && afterBlank) || hasInnerMark (blankAhead [c]) cs

/-- Whether a text holds marks that forbid it to be plain. -/
def hasMarks (cs : List Char) : Bool :=
  match cs with
  | [] => false
  | c :: rest =>
      cs.take 3 == ['-', '-', '-'] || cs.take 3 == ['.', '.', '.'] || startsMarkup c ||
        ((c == '?' || c == ':' || c == '-') && blankAhead rest) ||
        hasInnerMark (blankAhead [c]) rest

/-- Whether a character of the first class is directly followed by one of the second. -/
def hasPair (first second : Char → Bool) : List Char → Bool
  | c :: d :: cs => (first c && second d) || hasPair first second (d :: cs)
  | _ => false

/-- How a text is written. -/
inductive ScalarStyle where
  | plain
  | single
  | double
  | block
deriving DecidableEq, Repr

/-- Whether a character is a space. -/
def isSpace (c : Char) : Bool :=
  c == ' '

/-- Whether a text can be written without escapes: no character needs one, and no space stands in front
of a line break. -/
def needsNoEscape (cs : List Char) : Bool :=
  cs.all isPlainChar && !hasPair isSpace isBreak cs

/-- Whether a text can be written without quotes on one line. -/
def canBePlain (cs : List Char) : Bool :=
  needsNoEscape cs && !cs.any isBreak && !cs.head?.any isSpace && !cs.getLast?.any isSpace &&
    !hasMarks cs

/-- Whether a text can be written in single quotes. -/
def canBeSingle (cs : List Char) : Bool :=
  needsNoEscape cs && !hasPair isBreak isSpace cs

/-- Whether a text can be written as a literal block. -/
def canBeBlock (cs : List Char) : Bool :=
  needsNoEscape cs && !cs.getLast?.any isSpace

/-- The style of a text: a block if it has several lines, else the plainest that reads back. -/
def scalarStyle (text : String) : ScalarStyle :=
  let cs := text.toList
  if cs.contains '\n' then if canBeBlock cs then .block else .double
  else if !readsOtherwise text && canBePlain cs then .plain
  else if canBeSingle cs then .single
  else .double

/-- Spaces up to a column. -/
def pad (column : Nat) : List Char :=
  List.replicate column ' '

/-- The lines of a text, each behind its indentation. A line feed starts a new line; any other break
stands as it is. The flag tells whether a break came last. -/
def indentLines (column : Nat) : (broken : Bool) → List Char → List Char
  | _, [] => []
  | broken, c :: cs =>
      if isBreak c then c :: indentLines column true cs
      else (if broken then pad column else []) ++ c :: indentLines column false cs

/-- A character inside single quotes. -/
def singleChar (c : Char) : List Char :=
  if c == '\x27' then ['\x27', '\x27'] else [c]

/-- A text in single quotes. A break in it is followed by the indentation. -/
def singleQuoted (column : Nat) (cs : List Char) : List Char :=
  '\x27' :: (indentLines column false cs).flatMap singleChar ++
    (if cs.getLast?.any isBreak then pad column else []) ++ ['\x27']

/-- A number in upper case hexadecimal digits, of at least the given width. -/
def hexPadded (width n : Nat) : List Char :=
  let digits := (Nat.toDigits 16 n).map Char.toUpper
  List.replicate (width - digits.length) '0' ++ digits

/-- The escapes of one letter, by code point. -/
def letterEscapes : List (Nat × Char) :=
  [(0x00, '0'), (0x07, 'a'), (0x08, 'b'), (0x09, 't'), (0x0A, 'n'), (0x0B, 'v'), (0x0C, 'f'),
   (0x0D, 'r'), (0x1B, 'e'), (0x22, '"'), (0x5C, '\\'), (0x85, 'N'), (0xA0, '_'), (0x2028, 'L'),
   (0x2029, 'P')]

/-- An escaped character. -/
def escapeChar (c : Char) : List Char :=
  match letterEscapes.lookup c.toNat with
  | some letter => ['\\', letter]
  | none =>
      if c.toNat ≤ 0xFF then '\\' :: 'x' :: hexPadded 2 c.toNat
      else if c.toNat ≤ 0xFFFF then '\\' :: 'u' :: hexPadded 4 c.toNat
      else '\\' :: 'U' :: hexPadded 8 c.toNat

/-- A character inside double quotes. -/
def doubleChar (c : Char) : List Char :=
  if !isPlainChar c || isBreak c || c == '"' || c == '\\' then escapeChar c else [c]

/-- A text in double quotes. -/
def doubleQuoted (cs : List Char) : List Char :=
  '"' :: cs.flatMap doubleChar ++ ['"']

/-- The header of a literal block: the indentation where the first line does not show it, and what
becomes of the breaks at the end. -/
def blockHeader (cs : List Char) : List Char :=
  '|' :: (if cs.head?.any fun c => isSpace c || isBreak c then ['2'] else []) ++
    match cs.reverse with
    | [] => ['-']
    | [_] => ['+']
    | last :: before :: _ =>
        if !isBreak last then ['-'] else if isBreak before then ['+'] else []

/-- A text of several lines as a literal block. -/
def literalBlock (column : Nat) (cs : List Char) : List Char :=
  blockHeader cs ++ '\n' :: indentLines column true cs

/-- A text with the end of its line, where the lines of a block start at the given column. -/
def scalarLine (column : Nat) (text : String) : String :=
  let cs := text.toList
  String.ofList <|
    match scalarStyle text with
    | .plain => cs ++ ['\n']
    | .single => singleQuoted column cs ++ ['\n']
    | .double => doubleQuoted cs ++ ['\n']
    | .block => literalBlock column cs ++ (if cs.getLast?.any isBreak then [] else ['\n'])

/-- The start of a line at a column. -/
def margin (column : Nat) : String :=
  String.ofList (pad column)

mutual

/-- What follows the dash of a list item, which stands two columns before `column`. -/
def itemText (column : Nat) : Data → String
  | .boolean value => (if value then "true" else "false") ++ "\n"
  | .integer value => toString value ++ "\n"
  | .real value => value.numeral yamlStyle ++ "\n"
  | .text value => scalarLine column value
  | .list [] => "[]\n"
  | .list (item :: rest) => "- " ++ itemText (column + 2) item ++ itemLines column rest
  | .record [] => "\x7b\x7d\n"
  | .record ((name, value) :: rest) => fieldText column name value ++ fieldLines column rest

/-- The items of a list whose dashes stand at a column. -/
def itemLines (column : Nat) : List Data → String
  | [] => ""
  | item :: rest => margin column ++ "- " ++ itemText (column + 2) item ++ itemLines column rest

/-- A field of a record, from its name on, which stands at a column. -/
def fieldText (column : Nat) (name : String) : Data → String
  | .boolean value => name ++ ": " ++ (if value then "true" else "false") ++ "\n"
  | .integer value => name ++ ": " ++ toString value ++ "\n"
  | .real value => name ++ ": " ++ value.numeral yamlStyle ++ "\n"
  | .text value => name ++ ": " ++ scalarLine (column + 2) value
  | .list [] => name ++ ": []\n"
  | .list items => name ++ ":\n" ++ itemLines column items
  | .record [] => name ++ ": \x7b\x7d\n"
  | .record fields => name ++ ":\n" ++ fieldLines (column + 2) fields

/-- The fields of a record whose names stand at a column. -/
def fieldLines (column : Nat) : List (String × Data) → String
  | [] => ""
  | (name, value) :: rest =>
      margin column ++ fieldText column name value ++ fieldLines column rest

end

end Yaml

/-- Data as YAML text. -/
def Data.toYaml : Data → String
  | .record fields => Yaml.fieldLines 0 fields
  | data => Yaml.itemText 0 data

end PassageMarkup
