/-
Module: PassageMarkup.Config.Path
Layer: Config
Purpose: Paths to settings, such as `output.format` or `catalog.macros[0]`. A path starts with a name;
  names follow behind points and places of a list in square brackets. Names are letters, digits, hyphens,
  underscores and spaces.
Imports: Number.Decimal, Text.Blank
Main exports: Step, Path, Path.read?
-/
import PassageMarkup.Number.Decimal
import PassageMarkup.Text.Blank

namespace PassageMarkup.Config

/-- One step of a path: to a field of a table, or to a place of a list. Negative places count from the
end. -/
inductive Step where
  | field (name : String)
  | place (index : Int)
deriving DecidableEq, Repr

/-- A path: a field of the whole configuration, and further steps from there. -/
structure Path where
  first : String
  steps : List Step
deriving DecidableEq, Repr

/-- Whether a character can be part of a name in a path. -/
def isNameChar (c : Char) : Bool :=
  c.isAlphanum || c == ' ' || c == '_' || c == '-'

/-- Read a name in front. -/
def readName? (cs : List Char) : Option (String × List Char) :=
  let name := cs.takeWhile isNameChar
  if name.isEmpty then none else some (String.ofList name, cs.dropWhile isNameChar)

/-- Read a whole number of 64 bits, with a minus sign in front if it is negative. -/
def readIndex? (cs : List Char) : Option (Int × List Char) :=
  let (negative, body) :=
    match cs with
    | '-' :: rest => (true, rest)
    | _ => (false, cs)
  let digits := body.takeWhile Number.isAsciiDigit
  let value : Int := if negative then -(Number.digitsValue digits) else Number.digitsValue digits
  if digits.isEmpty ∨ value < -Nat.pow 2 63 ∨ Nat.pow 2 63 ≤ value then none
  else some (value, body.dropWhile Number.isAsciiDigit)

/-- Read the steps of a path up to its end. -/
def readSteps? : (fuel : Nat) → List Char → Option (List Step)
  | _, [] => some []
  | 0, _ => none
  | fuel + 1, '.' :: cs => do
      let (name, rest) ← readName? cs
      (readSteps? fuel rest).map (.field name :: ·)
  | fuel + 1, '[' :: cs => do
      let (index, rest) ← readIndex? (Text.skipSpace cs)
      match Text.skipSpace rest with
      | ']' :: later => (readSteps? fuel later).map (.place index :: ·)
      | _ => none
  | _, _ => none

/-- Read a path. -/
def Path.read? (text : String) : Option Path := do
  let (first, rest) ← readName? text.toList
  (readSteps? rest.length rest).map (⟨first, ·⟩)

end PassageMarkup.Config
