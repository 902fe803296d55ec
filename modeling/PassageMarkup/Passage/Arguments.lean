/-
Module: PassageMarkup.Passage.Arguments
Layer: Passage
Purpose: The arguments of a call as they are written: two values joined by a keyword, a list of
  expressions, or a run of tokens that is neither.
Imports: Passage.Expression
Main exports: Keyword, Arguments
-/
import PassageMarkup.Passage.Expression

namespace PassageMarkup

/-- A word or sign that joins the two sides of a keyword argument. -/
inductive Keyword where
  | to
  | arrow
deriving DecidableEq, Repr

/-- The spelling of a keyword. -/
def Keyword.symbol : Keyword → String
  | .to => "to"
  | .arrow => "->"

/-- The keyword with a given spelling. -/
def Keyword.ofSymbol? (symbol : String) : Option Keyword :=
  [Keyword.to, Keyword.arrow].find? (·.symbol == symbol)

/-- The arguments of a call, before they are checked. -/
inductive Arguments where
  | keyword (keyword : Keyword) (left right : Expression)
  | list (items : List Expression)
  | unparsed
deriving DecidableEq

/-- The keyword that joins the arguments, if one does. -/
def Arguments.keyword? : Arguments → Option Keyword
  | .keyword word _ _ => some word
  | _ => none

/-- The expressions among the arguments, in order. -/
def Arguments.expressions : Arguments → List Expression
  | .keyword _ left right => [left, right]
  | .list items => items
  | .unparsed => []

end PassageMarkup
