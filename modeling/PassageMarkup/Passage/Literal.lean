/-
Module: PassageMarkup.Passage.Literal
Layer: Passage
Purpose: Literal values: strings, numbers, booleans, durations and variables. A duration keeps its
  spelling; its length in milliseconds is read from it on demand.
Imports: Number.Numeral
Main exports: Literal, Literal.typeName, Literal.label, Literal.category, Literal.duration?
-/
import PassageMarkup.Number.Numeral

namespace PassageMarkup

open Number

/-- A value that is written as one token, or as a number behind a minus sign. -/
inductive Literal where
  | string (value : String)
  | number (value : Binary64)
  | boolean (value : Bool)
  /-- A duration as it is spelled, such as `2s` or `500ms`. -/
  | time (value : String)
  /-- A variable without its `$`. -/
  | variable (name : String)
deriving DecidableEq

/-- The name of a literal's type in trees. -/
def Literal.typeName : Literal → String
  | .string _ => "String"
  | .number _ => "Number"
  | .boolean _ => "Boolean"
  | .time _ => "Time"
  | .variable _ => "Variable"

/-- What a literal is called in messages about arguments. -/
def Literal.category : Literal → String
  | .string _ => "string literal"
  | .number _ => "number"
  | .boolean _ => "boolean"
  | .time _ => "time"
  | .variable _ => "variable"

/-- A literal as labels show it. A string stands in quotes, without escapes. -/
def Literal.label : Literal → String
  | .string value => "\"" ++ value ++ "\""
  | .number value => value.numeral labelStyle
  | .boolean value => if value then "true" else "false"
  | .time value => value
  | .variable name => "$" ++ name

/-- The milliseconds that a spelled duration lasts: the numeral before `ms`, or a thousand times the
numeral before `s`. -/
def readDuration? (spelling : List Char) : Option Binary64 :=
  match spelling.reverse with
  | 's' :: 'm' :: numeral => Binary64.readChars? numeral.reverse
  | 's' :: numeral => (Binary64.readChars? numeral.reverse).map (·.scale 1000)
  | _ => none

/-- The length of a duration in milliseconds; other literals have none. -/
def Literal.duration? : Literal → Option Binary64
  | .time value => readDuration? value.toList
  | _ => none

end PassageMarkup
