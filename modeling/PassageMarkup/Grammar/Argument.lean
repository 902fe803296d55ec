/-
Module: PassageMarkup.Grammar.Argument
Layer: Grammar
Purpose: The rules of a call's arguments.
    value       is a minus sign and a number, or a literal;
    arithmetic  is a value, and an operator and a second value if they follow;
    expression  is two arithmetics with a comparison between them, or one;
    arguments   are a value, a keyword and an expression; or expressions with commas between them; or any
                tokens that stay inside the call; each with the parenthesis that closes the call.
  The three forms of arguments are tried in this order. Each of them counts only with the closing
  parenthesis behind it, so a form that ends too early gives way to the next.
Imports: Grammar.Rule, Grammar.TokenValue
Main exports: Grammar.value, Grammar.arithmetic, Grammar.comparison, Grammar.expression,
  Grammar.keywordArgument, Grammar.argumentList, Grammar.unparsed, Grammar.arguments
-/
import PassageMarkup.Grammar.Rule
import PassageMarkup.Grammar.TokenValue

namespace PassageMarkup

/-- A minus sign and a number. -/
def Grammar.negativeNumber : Rule Literal :=
  ((Rule.token Token.isMinus).andThen (.take Token.number?)).map fun (_, value) => .number value.negate

/-- A value. -/
def Grammar.value : Rule Literal :=
  negativeNumber.orElse (.take Token.literal?)

/-- A value as an expression. -/
def Grammar.operand : Rule Expression :=
  value.map .value

/-- The expression of a value and what follows it. -/
def Grammar.joinOperands : Expression × Option (ArithmeticOperator × Expression) → Expression
  | (left, some (operator, right)) => .arithmetic operator left right
  | (left, none) => left

/-- A value, or an operation on two values. -/
def Grammar.arithmetic : Rule Expression :=
  (operand.andThen ((Rule.take Token.arithmetic?).andThen operand).optional).map joinOperands

/-- A comparison. -/
def Grammar.comparison : Rule Expression :=
  ((arithmetic.andThen (.take Token.comparison?)).andThen arithmetic).map
    fun ((left, operator), right) => .comparison operator left right

/-- An expression. The comparison comes first, so that it is not cut short behind its left side. -/
def Grammar.expression : Rule Expression :=
  comparison.orElse arithmetic

/-- A keyword argument. -/
def Grammar.keywordArgument : Rule Arguments :=
  ((operand.andThen (.take Token.keyword?)).andThen expression).map
    fun ((left, keyword), right) => .keyword keyword left right

/-- Expressions with commas between them, or none. -/
def Grammar.argumentList : Rule Arguments :=
  ((expression.separated (.kind .comma)).orElse (.pure [])).map .list

/-- Whether a token stays inside the call in which it stands. -/
def Token.isPlain (token : Token) : Bool :=
  !token.kind.isBracket && token.kind != .callHead && token.kind != .closeParen

/-- A token that stays inside the call, or an inner call as a whole. -/
def Grammar.element : Rule Unit :=
  .recursive fun element =>
    ((Rule.token Token.isPlain).map fun _ => ()).orElse
      ((((Rule.kind .callHead).andThen element.many).andThen (.kind .closeParen)).map fun _ => ())

/-- Any tokens that stay inside the call. -/
def Grammar.unparsed : Rule Arguments :=
  element.many.map fun _ => .unparsed

/-- A form of arguments with the parenthesis that closes the call. -/
def Grammar.closed (form : Rule Arguments) : Rule (Arguments × Token) :=
  form.andThen (.kind .closeParen)

/-- The arguments of a call and its closing parenthesis. -/
def Grammar.arguments : Rule (Arguments × Token) :=
  (closed keywordArgument).orElse ((closed argumentList).orElse (closed unparsed))

end PassageMarkup
