/-
Module: PassageMarkup.Config.Toml.Moment
Layer: Config
Purpose: Dates and times of a TOML document. A moment is a date, a time of day or both, with an offset
  from universal time where both are there, and it has one normal form. While a document is read, a moment
  is a table whose first field has a reserved name and holds the spelling as a text; any table of that
  form is a moment. Once the document is complete, the texts in normal form take the place of such tables.
Imports: Config.Setting, Config.Toml.Text
Main exports: MomentRules, moment?, momentTag, settle?
-/
import PassageMarkup.Config.Setting
import PassageMarkup.Config.Toml.Text

namespace PassageMarkup.Toml

open Number

/-- The number that exactly so many decimal digits spell. -/
def fixedDigits? (count : Nat) (cs : List Char) : Option (Nat × List Char) :=
  let digits := cs.take count
  if digits.length = count ∧ digits.all isAsciiDigit then some (digitsValue digits, cs.drop count)
  else none

/-- A number with zeros in front up to a width. -/
def padded (width n : Nat) : List Char :=
  let digits := Nat.toDigits 10 n
  List.replicate (width - digits.length) '0' ++ digits

/-- Number of days in a month. -/
def daysIn (year month : Nat) : Nat :=
  if month = 2 then
    if year % 4 = 0 ∧ (year % 100 ≠ 0 ∨ year % 400 = 0) then 29 else 28
  else if month = 4 ∨ month = 6 ∨ month = 9 ∨ month = 11 then 30
  else 31

/-- Which hours and offsets are accepted. -/
structure MomentRules where
  lastHour : Nat
  /-- Whether an offset of so many hours and minutes is accepted. -/
  offsetFits : Nat → Nat → Bool

/-- A moment that a document spells out keeps to the hours and minutes of a day. -/
def spelledRules : MomentRules :=
  ⟨23, fun hours minutes => hours ≤ 23 && minutes ≤ 59⟩

/-- A moment in a tagged table may also use the end of the day and any offset of at most one day. -/
def taggedRules : MomentRules :=
  ⟨24, fun hours minutes => 60 * hours + minutes ≤ 24 * 60⟩

/-- Read a date and give its normal form. -/
def readDate? (cs : List Char) : Option (List Char × List Char) := do
  let (year, cs) ← fixedDigits? 4 cs
  let (month, cs) ← fixedDigits? 2 (← expect? '-' cs)
  let (day, cs) ← fixedDigits? 2 (← expect? '-' cs)
  if 1 ≤ month ∧ month ≤ 12 ∧ 1 ≤ day ∧ day ≤ daysIn year month then
    some (padded 4 year ++ '-' :: padded 2 month ++ '-' :: padded 2 day, cs)
  else none

/-- The normal form of the digits of a second's fraction: nine at most, without zeros at the end. -/
def fractionForm (digits : List Char) : List Char :=
  match ((digits.take 9).reverse.dropWhile (· == '0')).reverse with
  | [] => []
  | kept => '.' :: kept

/-- Read a time of day and give its normal form. -/
def readTime? (rules : MomentRules) (cs : List Char) : Option (List Char × List Char) := do
  let (hour, cs) ← fixedDigits? 2 cs
  let (minute, cs) ← fixedDigits? 2 (← expect? ':' cs)
  let (second, cs) ← fixedDigits? 2 (← expect? ':' cs)
  if rules.lastHour < hour ∨ 59 < minute ∨ 60 < second then none
  else
    let clock := padded 2 hour ++ ':' :: padded 2 minute ++ ':' :: padded 2 second
    match cs with
    | '.' :: rest =>
        let digits := rest.takeWhile isAsciiDigit
        if digits.isEmpty then none
        else some (clock ++ fractionForm digits, rest.dropWhile isAsciiDigit)
    | _ => some (clock, cs)

/-- The normal form of an offset of so many minutes behind its sign. -/
def offsetForm (sign : Char) (minutes : Nat) : List Char :=
  (if minutes = 0 then '+' else sign) :: padded 2 (minutes / 60) ++ ':' :: padded 2 (minutes % 60)

/-- Read an offset from universal time and give its normal form; nothing is no offset. -/
def readOffset? (rules : MomentRules) (cs : List Char) : Option (List Char × List Char) :=
  match cs with
  | [] => some ([], [])
  | c :: rest =>
      if c = 'Z' ∨ c = 'z' then some (['Z'], rest)
      else if c = '+' ∨ c = '-' then do
        let (hours, rest) ← fixedDigits? 2 rest
        let (minutes, rest) ← fixedDigits? 2 (← expect? ':' rest)
        if rules.offsetFits hours minutes then some (offsetForm c (60 * hours + minutes), rest)
        else none
      else none

/-- The normal form of the moment that a word spells. -/
def moment? (rules : MomentRules) (word : List Char) : Option (List Char) :=
  match readDate? word with
  | some (date, []) => some date
  | some (date, mark :: rest) =>
      if mark = 'T' ∨ mark = 't' ∨ mark = ' ' then do
        let (time, rest) ← readTime? rules rest
        let (offset, rest) ← readOffset? rules rest
        if rest.isEmpty then some (date ++ 'T' :: time ++ offset) else none
      else none
  | none =>
      match readTime? rules word with
      | some (time, []) => some time
      | _ => none

/-- The name of the field that makes a table a moment. -/
def momentTag : String := "$__toml_private_datetime"

/-- A moment while the document is read. -/
def momentSetting (spelling : List Char) : Setting :=
  .table [(momentTag, .text (String.ofList spelling))]

/-- The text of a tagged table, given what its first field holds; only a spelled moment will do. -/
def momentText? : Setting → Option Setting
  | .text spelling =>
      (moment? taggedRules spelling.toList).map fun form => .text (String.ofList form)
  | _ => none

mutual

/-- A setting with the texts of its moments in place of tagged tables. The first field decides whether a
table is tagged, and then its other fields are ignored. -/
def settle? : Setting → Option Setting
  | .nil => some .nil
  | .boolean value => some (.boolean value)
  | .integer value => some (.integer value)
  | .real value => some (.real value)
  | .text value => some (.text value)
  | .list items => (settleItems? items).map .list
  | .table [] => some (.table [])
  | .table ((name, value) :: rest) =>
      if name = momentTag then momentText? value
      else do
        let first ← settle? value
        let fields ← settleFields? rest
        some (.table ((name, first) :: fields))

/-- The items of a list with the texts of their moments. -/
def settleItems? : List Setting → Option (List Setting)
  | [] => some []
  | item :: rest => do
      let first ← settle? item
      let items ← settleItems? rest
      some (first :: items)

/-- Fields behind the first one with the texts of their moments. -/
def settleFields? : List (String × Setting) → Option (List (String × Setting))
  | [] => some []
  | (name, value) :: rest => do
      let first ← settle? value
      let fields ← settleFields? rest
      some ((name, first) :: fields)

end

end PassageMarkup.Toml
