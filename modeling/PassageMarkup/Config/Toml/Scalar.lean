/-
Module: PassageMarkup.Config.Toml.Scalar
Layer: Config
Purpose: The values of a TOML document that are written as one word: truth values, whole numbers, real
  numbers, dates and times.
Imports: Config.Setting, Config.Toml.Moment, Config.Toml.Text
Main exports: integer?, real?, readScalar?
-/
import PassageMarkup.Config.Setting
import PassageMarkup.Config.Toml.Moment
import PassageMarkup.Config.Toml.Text

namespace PassageMarkup.Toml

open Number

/-- Whether a character can be part of such a word. -/
def isScalarChar (c : Char) : Bool :=
  c.isAlphanum || c == '+' || c == '-' || c == '_' || c == '.' || c == ':'

/-- Remove underscores, each of which must stand between two digits of the class. -/
def digitsOf? (isDigit : Char → Bool) : List Char → Option (List Char)
  | [] => none
  | [c] => if isDigit c then some [c] else none
  | c :: '_' :: cs => if isDigit c then (digitsOf? isDigit cs).map (c :: ·) else none
  | c :: d :: cs => if isDigit c then (digitsOf? isDigit (d :: cs)).map (c :: ·) else none

/-- Whether decimal digits have no zero in front. -/
def isUnpadded : List Char → Bool
  | '0' :: _ :: _ => false
  | _ => true

/-- The whole number that digits of a base spell, if it fits into 63 bits. -/
def basedInteger? (base : Nat) (isDigit : Char → Bool) (cs : List Char) : Option Int := do
  let value ← ofDigits? base (← digitsOf? isDigit cs)
  if value < Nat.pow 2 63 then some value else none

/-- Whether a character is a hexadecimal digit. -/
def isHexDigit (c : Char) : Bool :=
  isAsciiDigit c || ('a' ≤ c && c ≤ 'f') || ('A' ≤ c && c ≤ 'F')

/-- The whole number that a word spells. -/
def integer? (word : List Char) : Option Int :=
  match word with
  | '0' :: 'x' :: rest => basedInteger? 16 isHexDigit rest
  | '0' :: 'o' :: rest => basedInteger? 8 (fun c => '0' ≤ c && c ≤ '7') rest
  | '0' :: 'b' :: rest => basedInteger? 2 (fun c => c == '0' || c == '1') rest
  | _ => do
      let (negative, body) := splitSign word
      let digits ← digitsOf? isAsciiDigit body
      let value : Int := if negative then -(digitsValue digits) else digitsValue digits
      if isUnpadded digits ∧ -Nat.pow 2 63 ≤ value ∧ value < Nat.pow 2 63 then some value else none

/-- Split a list at the first character of a class; the character itself belongs to neither part. -/
def splitAt? (isMark : Char → Bool) (cs : List Char) : List Char × Option (List Char) :=
  (cs.takeWhile (!isMark ·), (cs.dropWhile (!isMark ·)).tail?)

/-- The real number that a word spells: digits with a fraction, an exponent or both. -/
def real? (word : List Char) : Option Binary64 := do
  let (negative, body) := splitSign word
  if body = ['i', 'n', 'f'] then some (.infinite negative)
  else if body = ['n', 'a', 'n'] then some .nan
  else
    let (mantissa, exponent) := splitAt? (fun c => c == 'e' || c == 'E') body
    let (whole, fraction) := splitAt? (· == '.') mantissa
    if exponent.isNone && fraction.isNone then none
    else
      let wholeDigits ← digitsOf? isAsciiDigit whole
      let fractionDigits ←
        match fraction with
        | none => some []
        | some digits => digitsOf? isAsciiDigit digits
      let power ←
        match exponent with
        | none => some []
        | some spelled => do
            let (below, digits) := splitSign spelled
            let value ← digitsOf? isAsciiDigit digits
            some ('e' :: (if below then ['-'] else []) ++ value)
      let value ← readDigits? negative (wholeDigits ++ '.' :: fractionDigits ++ power)
      if isUnpadded wholeDigits ∧ value ≠ .infinite false then some value else none

/-- The word in front. A date and a time of day may have a space between them. -/
def scalarWord (cs : List Char) : List Char × List Char :=
  let word := cs.takeWhile isScalarChar
  let rest := cs.dropWhile isScalarChar
  match rest with
  | ' ' :: c :: later =>
      if (moment? spelledRules word).isSome && word.length == 10 && isAsciiDigit c then
        (word ++ ' ' :: (c :: later).takeWhile isScalarChar, (c :: later).dropWhile isScalarChar)
      else (word, rest)
  | _ => (word, rest)

/-- The value that a word spells. -/
def scalar? (word : List Char) : Option Setting :=
  if word = ['t', 'r', 'u', 'e'] then some (.boolean true)
  else if word = ['f', 'a', 'l', 's', 'e'] then some (.boolean false)
  else
    match integer? word, real? word, moment? spelledRules word with
    | some value, _, _ => some (.integer value)
    | none, some value, _ => some (.real value)
    | none, none, some form => some (momentSetting form)
    | none, none, none => none

/-- Read a value that is written as one word. -/
def readScalar? (cs : List Char) : Option (Setting × List Char) :=
  let (word, rest) := scalarWord cs
  (scalar? word).map fun value => (value, rest)

end PassageMarkup.Toml
