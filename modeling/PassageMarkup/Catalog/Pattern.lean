/-
Module: PassageMarkup.Catalog.Pattern
Layer: Catalog
Purpose: Patterns of arguments: which shape the arguments of a call must have, and to which category
  each of them must belong. Fitting is decided here, together with what is wrong where it fails.
Imports: Passage.Arguments
Main exports: Category, Pattern, Mismatch, Pattern.describe, Pattern.check
-/
import PassageMarkup.Passage.Arguments

namespace PassageMarkup

/-- The category that an argument must belong to, from the narrowest to the widest. -/
inductive Category where
  /-- A variable and nothing else. -/
  | variable
  /-- A string, or a variable that may hold one. -/
  | stringLiteral
  /-- Any single literal. -/
  | value
  | expression
deriving DecidableEq, Repr

/-- All categories, from the narrowest to the widest. -/
def Category.all : List Category :=
  [.variable, .stringLiteral, .value, .expression]

/-- Whether an expression belongs to a category. -/
def Category.accepts : Category → Expression → Bool
  | .variable, .value (.variable _) => true
  | .stringLiteral, .value (.variable _) => true
  | .stringLiteral, .value (.string _) => true
  | .value, .value _ => true
  | .expression, _ => true
  | _, _ => false

/-- What a category is called in messages. -/
def Category.description : Category → String
  | .variable => "variable"
  | .stringLiteral => "string"
  | .value => "value"
  | .expression => "expression"

/-- The tag of a category in serialized patterns. -/
def Category.tag : Category → String
  | .variable => "variable"
  | .stringLiteral => "string-literal"
  | .value => "value"
  | .expression => "expression"

/-- The category that a tag stands for. -/
def Category.ofTag? (tag : String) : Option Category :=
  all.find? (·.tag == tag)

/-- The shape of a call's arguments. -/
inductive Pattern where
  /-- Two sides joined by a keyword. -/
  | keyword (keyword : Keyword) (left right : Category)
  /-- A list of fixed length, a category for each place. -/
  | positional (categories : List Category)
  /-- A list of at least `min` arguments of one category. -/
  | variadic (min : Nat) (category : Category)
deriving DecidableEq, Repr

/-- A noun in the number that a count asks for. -/
def pluralWord (count : Nat) (word : String) : String :=
  if count = 1 then word else word ++ "s"

/-- A count with its noun. -/
def plural (count : Nat) (word : String) : String :=
  toString count ++ " " ++ pluralWord count word

/-- A pattern in words. -/
def Pattern.describe : Pattern → String
  | .keyword word left right =>
      left.description ++ " " ++ word.symbol ++ " " ++ right.description
  | .positional categories => plural categories.length "argument"
  | .variadic min category =>
      "at least " ++ toString min ++ " " ++ pluralWord min category.description

/-- The form of some arguments in words. -/
def Arguments.describe : Arguments → String
  | .keyword word _ _ => "keyword argument with " ++ word.symbol
  | .list items => plural items.length "argument"
  | .unparsed => "unparseable arguments"

/-- How some arguments fail to fit a pattern. The position, counted from zero, is there when a single
argument is at fault. -/
structure Mismatch where
  expected : String
  actual : String
  position : Option Nat
deriving DecidableEq, Repr

/-- The mismatch of one argument. -/
def Mismatch.at (position : Nat) (category : Category) (argument : Expression) : Mismatch :=
  ⟨category.description, argument.category, some position⟩

/-- The mismatch of a pattern with the arguments as a whole. -/
def Pattern.mismatch (pattern : Pattern) (arguments : Arguments) : Mismatch :=
  ⟨pattern.describe, arguments.describe, none⟩

/-- Check arguments from left to right, each against its category; `position` is that of the first. -/
def checkEach (position : Nat) : List (Category × Expression) → Except Mismatch Unit
  | [] => .ok ()
  | (category, argument) :: rest =>
      if category.accepts argument then checkEach (position + 1) rest
      else .error (.at position category argument)

/-- Check arguments against a pattern: first the form, then the keyword or the number of arguments,
then every argument from left to right. -/
def Pattern.check (pattern : Pattern) (arguments : Arguments) : Except Mismatch Unit :=
  match pattern, arguments with
  | .keyword wanted left right, .keyword word first second =>
      if word = wanted then checkEach 0 [(left, first), (right, second)]
      else .error ⟨wanted.symbol, word.symbol, none⟩
  | .keyword wanted _ _, _ =>
      .error ⟨"keyword argument with " ++ wanted.symbol, arguments.describe, none⟩
  | .positional categories, .list items =>
      if categories.length = items.length then checkEach 0 (categories.zip items)
      else .error (pattern.mismatch arguments)
  | .variadic min category, .list items =>
      if min ≤ items.length then checkEach 0 (items.map (category, ·))
      else .error (pattern.mismatch arguments)
  | _, _ => .error (pattern.mismatch arguments)

end PassageMarkup
