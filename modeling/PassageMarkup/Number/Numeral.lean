/-
Module: PassageMarkup.Number.Numeral
Layer: Number
Purpose: Numerals as texts. The digits are always the shortest that read back; a style says between
  which exponents they are laid out in full, how a whole number ends, and how an exponent is written.
Imports: Number.Shortest
Main exports: NumeralStyle, Magnitude.numeralChars, Binary64.numeral, labelStyle,
  durationStyle
-/
import PassageMarkup.Number.Shortest

namespace PassageMarkup.Number

/-- How a number is laid out. -/
structure NumeralStyle where
  /-- The least and the greatest leading exponent written in full; every one where absent. -/
  inFull : Option (Int × Int)
  /-- Whether a whole number ends in `.0`. -/
  wholePoint : Bool
  /-- Whether a positive exponent has a plus sign. -/
  plusExponent : Bool
  /-- Which of two equally near numerals is taken. -/
  tie : Tie
  /-- The texts of what is not finite: undefined, and infinite without and with a minus sign. -/
  undefined : String
  infinite : String
  negativeInfinite : String

/-- Digits laid out in full, the point standing behind `point` of them. -/
def layOutInFull (wholePoint : Bool) (digits : List Char) (point : Int) : List Char :=
  if point ≤ 0 then '0' :: '.' :: (List.replicate (-point).toNat '0' ++ digits)
  else if digits.length ≤ point.toNat then
    digits ++ List.replicate (point.toNat - digits.length) '0' ++
      (if wholePoint then ['.', '0'] else [])
  else digits.take point.toNat ++ '.' :: digits.drop point.toNat

/-- Digits laid out with one digit before the point and an exponent. -/
def layOutScientific (plusExponent : Bool) (digits : List Char) (exponent : Int) : List Char :=
  digits.take 1 ++ (if digits.length ≤ 1 then [] else '.' :: digits.drop 1) ++
    'e' :: (if exponent < 0 then ['-'] else if plusExponent then ['+'] else []) ++
    Nat.toDigits 10 exponent.natAbs

/-- The characters of a finite magnitude. -/
def Magnitude.numeralChars (style : NumeralStyle) (magnitude : Magnitude) : List Char :=
  if magnitude.units = 0 then layOutInFull style.wholePoint ['0'] 1
  else
    let decimal := shortest style.tie magnitude.units
    let digits := Nat.toDigits 10 decimal.digits
    let point : Int := digits.length + decimal.exponent
    match style.inFull with
    | none => layOutInFull style.wholePoint digits point
    | some (least, greatest) =>
        if least ≤ point - 1 ∧ point - 1 ≤ greatest then
          layOutInFull style.wholePoint digits point
        else layOutScientific style.plusExponent digits (point - 1)

/-- The text of a number. -/
def Binary64.numeral (style : NumeralStyle) : Binary64 → String
  | .nan => style.undefined
  | .infinite negative => if negative then style.negativeInfinite else style.infinite
  | .finite negative magnitude =>
      String.ofList ((if negative then ['-'] else []) ++ magnitude.numeralChars style)

/-- Numbers in labels: always in full, whole numbers without a point. -/
def labelStyle : NumeralStyle :=
  ⟨none, false, false, .up, "NaN", "inf", "-inf"⟩

/-- Durations in milliseconds: in full from 0.0001 up to sixteen digits, whole numbers with `.0`. -/
def durationStyle : NumeralStyle :=
  ⟨some (-4, 15), true, false, .up, "NaN", "inf", "-inf"⟩

end PassageMarkup.Number
