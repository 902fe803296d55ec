/-
Module: PassageMarkup.Passage.Expression
Layer: Passage
Purpose: Expressions: a literal, or one operation on two expressions. A passage itself holds at most
  one arithmetic operation on each side of at most one comparison.
Imports: Passage.Literal, Text.Blank
Main exports: ArithmeticOperator, ComparisonOperator, Expression
-/
import PassageMarkup.Passage.Literal
import PassageMarkup.Text.Blank

namespace PassageMarkup

/-- An operation on two numbers. -/
inductive ArithmeticOperator where
  | add
  | subtract
  | multiply
  | divide
deriving DecidableEq, Repr

/-- All arithmetic operators. -/
def ArithmeticOperator.all : List ArithmeticOperator :=
  [.add, .subtract, .multiply, .divide]

/-- The sign of an arithmetic operator. -/
def ArithmeticOperator.symbol : ArithmeticOperator → String
  | .add => "+"
  | .subtract => "-"
  | .multiply => "*"
  | .divide => "/"

/-- The arithmetic operator with a given sign. -/
def ArithmeticOperator.ofSymbol? (symbol : String) : Option ArithmeticOperator :=
  all.find? (·.symbol == symbol)

/-- A test on two values. -/
inductive ComparisonOperator where
  | greaterOrEqual
  | lessOrEqual
  | greater
  | less
  | is
  | isNot
  | contains
  | doesNotContain
deriving DecidableEq, Repr

/-- All comparison operators. -/
def ComparisonOperator.all : List ComparisonOperator :=
  [.greaterOrEqual, .lessOrEqual, .greater, .less, .is, .isNot, .contains, .doesNotContain]

/-- The sign or the words of a comparison operator. -/
def ComparisonOperator.symbol : ComparisonOperator → String
  | .greaterOrEqual => ">="
  | .lessOrEqual => "<="
  | .greater => ">"
  | .less => "<"
  | .is => "is"
  | .isNot => "is not"
  | .contains => "contains"
  | .doesNotContain => "does not contain"

/-- The comparison operator with given words; the blanks between and around them do not matter. -/
def ComparisonOperator.ofSymbol? (symbol : String) : Option ComparisonOperator :=
  all.find? (·.symbol == Text.squeeze symbol)

/-- An argument of a call. -/
inductive Expression where
  | value (literal : Literal)
  | arithmetic (operator : ArithmeticOperator) (left right : Expression)
  | comparison (operator : ComparisonOperator) (left right : Expression)
deriving DecidableEq

/-- The literal that an expression is, if it is nothing more. -/
def Expression.literal? : Expression → Option Literal
  | .value literal => some literal
  | _ => none

/-- The name of an expression's type in trees. -/
def Expression.typeName : Expression → String
  | .value literal => literal.typeName
  | .arithmetic .. => "Arithmetic"
  | .comparison .. => "Comparison"

/-- What an expression is called in messages about arguments. -/
def Expression.category : Expression → String
  | .value literal => literal.category
  | .arithmetic .. => "arithmetic expression"
  | .comparison .. => "comparison"

/-- An expression as labels show it. -/
def Expression.label : Expression → String
  | .value literal => literal.label
  | .arithmetic operator left right => left.label ++ " " ++ operator.symbol ++ " " ++ right.label
  | .comparison operator left right => left.label ++ " " ++ operator.symbol ++ " " ++ right.label

/-- An expression as plain text: a string without its quotes, anything else as its label. -/
def Expression.plain : Expression → String
  | .value (.string content) => content
  | expression => expression.label

end PassageMarkup
