/-
Module: PassageMarkup.Grammar.TokenValue
Layer: Grammar
Purpose: What a single token can be in an expression: a literal, a number, a minus sign, an operator or a
  keyword. A string token is its value with the quotes taken off and its escapes resolved.
Imports: Passage.Arguments, Token.Basic
Main exports: unquote, Token.literal?, Token.number?, Token.isMinus, Token.arithmetic?, Token.comparison?,
  Token.keyword?
-/
import PassageMarkup.Passage.Arguments
import PassageMarkup.Token.Basic

namespace PassageMarkup

open Number

/-- Resolve escapes: a backslash stands for the character behind it. -/
def unescape : List Char → List Char
  | [] => []
  | '\\' :: [] => []
  | '\\' :: c :: cs => c :: unescape cs
  | c :: cs => c :: unescape cs

/-- The value of a string literal, read from its spelling with the quotes. -/
def unquote (spelling : List Char) : List Char :=
  match spelling with
  | '"' :: rest => unescape (if rest.getLast? = some '"' then rest.dropLast else spelling)
  | _ => unescape spelling

/-- The value of a number token, if its digits can be read. -/
def Token.number? (token : Token) : Option Binary64 :=
  if token.kind = .number then Binary64.read? token.text else none

/-- The literal that a token is by itself. -/
def Token.literal? (token : Token) : Option Literal :=
  match token.kind with
  | .string => some (.string (String.ofList (unquote token.text.toList)))
  | .number => (Binary64.read? token.text).map .number
  | .boolean => some (.boolean (token.text == "true"))
  | .time => some (.time token.text)
  | .variable => some (.variable (String.ofList (token.text.toList.drop 1)))
  | _ => none

/-- Whether a token is a minus sign. -/
def Token.isMinus (token : Token) : Bool :=
  token.kind == .arithmetic && token.text == "-"

/-- The arithmetic operator that a token is. -/
def Token.arithmetic? (token : Token) : Option ArithmeticOperator :=
  if token.kind = .arithmetic then ArithmeticOperator.ofSymbol? token.text else none

/-- The comparison operator that a token is. -/
def Token.comparison? (token : Token) : Option ComparisonOperator :=
  if token.kind = .comparison then ComparisonOperator.ofSymbol? token.text else none

/-- The keyword that a token is. -/
def Token.keyword? (token : Token) : Option Keyword :=
  match token.kind with
  | .keyword => some .to
  | .linkArrow => some .arrow
  | _ => none

end PassageMarkup
