/-
Module: PassageMarkup.Number.Shortest
Layer: Number
Purpose: The shortest decimal that reads back as a given double. For one digit, two digits and so on up
  to seventeen, the two decimals of that length next to the value are tried; the first length with one
  that reads back is taken, and of two the nearer. A tie is settled as the caller asks. Where no such
  length works the exact expansion of the value stands in, so the result always reads back.
Imports: Number.Decimal
Main exports: Decimal, Tie, decimalExponent, shortest
-/
import PassageMarkup.Number.Decimal

namespace PassageMarkup.Number

/-- The decimal `digits · 10 ^ exponent`. -/
structure Decimal where
  digits : Nat
  exponent : Int
deriving DecidableEq, Repr

/-- What becomes of a value halfway between two decimals of the same length. -/
inductive Tie where
  | up
  | toEven
deriving DecidableEq, Repr

/-- Exponent of the leading decimal digit of a positive number of units. -/
def decimalExponent (units : Nat) : Int :=
  if unitsPerOne ≤ units then (decimalWidth (units / unitsPerOne) : Int) - 1
  else -(decimalWidth ((unitsPerOne + units - 1) / units - 1) : Int)

/-- The number of units as a ratio with ten to the given exponent as its unit. -/
def unitsOver (units : Nat) : Int → Nat × Nat
  | .ofNat power => (units, unitsPerOne * Nat.pow 10 power)
  | .negSucc power => (units * Nat.pow 10 (power + 1), unitsPerOne)

/-- Whether a decimal reads as a number of units. -/
def readsAs (units : Nat) (decimal : Decimal) : Bool :=
  match Binary64.ofDecimal false decimal.digits decimal.exponent with
  | .finite _ magnitude => magnitude.units == units
  | _ => false

/-- The decimal with its last digit at the given exponent that reads as a number of units, the nearer
one of two. -/
def nearestAt (tie : Tie) (units : Nat) (exponent : Int) : Option Decimal :=
  let (num, den) := unitsOver units exponent
  let below : Decimal := ⟨num / den, exponent⟩
  let above : Decimal := ⟨num / den + 1, exponent⟩
  let rest := num % den
  match readsAs units below, readsAs units above with
  | true, false => some below
  | false, true => some above
  | false, false => none
  | true, true =>
      if 2 * rest < den then some below
      else if den < 2 * rest then some above
      else
        match tie with
        | .up => some above
        | .toEven => some (if below.digits % 2 = 0 then below else above)

/-- Remove up to `fuel` zeros at the end of a decimal. -/
def stripZeros : (fuel : Nat) → Decimal → Decimal
  | 0, decimal => decimal
  | fuel + 1, decimal =>
      if decimal.digits ≠ 0 ∧ decimal.digits % 10 = 0 then
        stripZeros fuel ⟨decimal.digits / 10, decimal.exponent + 1⟩
      else decimal

/-- The exact decimal expansion of a number of units. -/
def exactDecimal (units : Nat) : Decimal :=
  ⟨units * Nat.pow 5 unitBits, -(unitBits : Int)⟩

/-- The shortest decimal that reads as a positive number of units, without zeros at its end. -/
def shortest (tie : Tie) (units : Nat) : Decimal :=
  let lead := decimalExponent units
  let found := (List.range 17).findSome? fun (places : Nat) =>
    nearestAt tie units (lead - (places : Int))
  let decimal := found.getD (exactDecimal units)
  stripZeros (decimalWidth decimal.digits) decimal

end PassageMarkup.Number
