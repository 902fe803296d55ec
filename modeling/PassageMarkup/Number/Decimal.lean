/-
Module: PassageMarkup.Number.Decimal
Layer: Number
Purpose: Decimal numerals and how they are read. A numeral is an optional sign before either one of the
  words `inf`, `infinity` and `nan` in any case, or ASCII digits with at most one point among them and
  at least one digit, followed by an optional exponent. It stands for the nearest double.
Imports: Number.Binary64
Main exports: decimalWidth, digitsValue, digitValue?, ofDigits?, Binary64.ofDecimal, Binary64.read?
-/
import PassageMarkup.Number.Binary64

namespace PassageMarkup.Number

/-- Number of decimal digits of a whole number; zero has none. -/
def decimalWidth (n : Nat) : Nat :=
  if n = 0 then 0 else (Nat.toDigits 10 n).length

/-- Whether a character is an ASCII digit. -/
def isAsciiDigit (c : Char) : Bool :=
  '0' ≤ c && c ≤ '9'

/-- The whole number that ASCII digits spell. -/
def digitsValue (digits : List Char) : Nat :=
  digits.foldl (fun value c => 10 * value + (c.toNat - '0'.toNat)) 0

/-- The value of a digit in bases up to sixteen; letters count in either case. -/
def digitValue? (c : Char) : Option Nat :=
  if isAsciiDigit c then some (c.toNat - '0'.toNat)
  else if 'a' ≤ c && c ≤ 'f' then some (c.toNat - 'a'.toNat + 10)
  else if 'A' ≤ c && c ≤ 'F' then some (c.toNat - 'A'.toNat + 10)
  else none

/-- The whole number that digits of a base spell, if there are any and no other characters. -/
def ofDigits? (base : Nat) (digits : List Char) : Option Nat :=
  if digits.isEmpty then none
  else
    (digits.mapM fun c => (digitValue? c).filter (· < base)).map fun values =>
      values.foldl (fun sum value => base * sum + value) 0

/-- The double nearest to `digits · 10 ^ exponent`. Exponents far outside the range of a double are
decided without computing the power. -/
def Binary64.ofDecimal (negative : Bool) (digits : Nat) (exponent : Int) : Binary64 :=
  if digits = 0 then .zero negative
  else if 400 < exponent then .infinite negative
  else if exponent + decimalWidth digits < -400 then .zero negative
  else
    match exponent with
    | .ofNat power => .ofRatio negative (digits * Nat.pow 10 power * unitsPerOne) 1
    | .negSucc power => .ofRatio negative (digits * unitsPerOne) (Nat.pow 10 (power + 1))

/-- Split off a sign in front; the flag tells a minus. -/
def splitSign : List Char → Bool × List Char
  | '-' :: cs => (true, cs)
  | '+' :: cs => (false, cs)
  | cs => (false, cs)

/-- Read what may follow the digits of a numeral: nothing, or an exponent. -/
def readExponent? : List Char → Option Int
  | [] => some 0
  | c :: cs =>
      if c = 'e' ∨ c = 'E' then
        let (negative, digits) := splitSign cs
        if digits.isEmpty || !digits.all isAsciiDigit then none
        else some (if negative then -(digitsValue digits) else digitsValue digits)
      else none

/-- Read an unsigned numeral of digits, point and exponent. -/
def readDigits? (negative : Bool) (cs : List Char) : Option Binary64 :=
  let whole := cs.takeWhile isAsciiDigit
  let afterWhole := cs.dropWhile isAsciiDigit
  let (fraction, afterFraction) :=
    match afterWhole with
    | '.' :: rest => (rest.takeWhile isAsciiDigit, rest.dropWhile isAsciiDigit)
    | rest => ([], rest)
  if whole.isEmpty && fraction.isEmpty then none
  else
    (readExponent? afterFraction).map fun exponent =>
      .ofDecimal negative (digitsValue (whole ++ fraction)) (exponent - fraction.length)

/-- Read a numeral. -/
def Binary64.readChars? (cs : List Char) : Option Binary64 :=
  let (negative, body) := splitSign cs
  let word := String.ofList (body.map Char.toLower)
  if word = "nan" then some .nan
  else if word = "inf" ∨ word = "infinity" then some (.infinite negative)
  else readDigits? negative body

/-- Read the numeral that a text spells. -/
def Binary64.read? (text : String) : Option Binary64 :=
  readChars? text.toList

end PassageMarkup.Number
