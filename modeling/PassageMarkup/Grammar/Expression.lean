/-
Module: PassageMarkup.Grammar.Expression
Layer: Grammar
Purpose: The arguments of a call, told from the tokens of its whole body at once.
    value       is a literal token, or a minus sign and a number;
    arithmetic  is a value, or two values with an arithmetic operator between them;
    expression  is an arithmetic, or two of them with a comparison between them.
  A body is a keyword argument if it is a value, `to` or an arrow, and an expression; it is a list if
  it is empty or expressions with commas between them; any other body is left unparsed. Nothing is tried
  twice here; the rules of ordered choice, which do not know beforehand where a body ends, come to the same.
Imports: Grammar.TokenValue
Main exports: readValue?, readExpression?, Expression.ofTokens?, Arguments.ofTokens
-/
import PassageMarkup.Grammar.TokenValue

namespace PassageMarkup

/-- Read a value in front of some tokens. -/
def readValue? : List Token → Option (Literal × List Token)
  | [] => none
  | token :: rest =>
      if token.isMinus then
        match rest with
        | [] => none
        | digits :: later => digits.number?.map fun value => (.number value.negate, later)
      else token.literal?.map fun literal => (literal, rest)

/-- Read an arithmetic in front of some tokens. -/
def readArithmetic? (tokens : List Token) : Option (Expression × List Token) := do
  let (left, rest) ← readValue? tokens
  match rest with
  | [] => some (.value left, [])
  | token :: later =>
      match token.arithmetic? with
      | none => some (.value left, rest)
      | some operator => do
          let (right, after) ← readValue? later
          some (.arithmetic operator (.value left) (.value right), after)

/-- Read an expression in front of some tokens. -/
def readExpression? (tokens : List Token) : Option (Expression × List Token) := do
  let (left, rest) ← readArithmetic? tokens
  match rest with
  | [] => some (left, [])
  | token :: later =>
      match token.comparison? with
      | none => some (left, rest)
      | some operator => do
          let (right, after) ← readArithmetic? later
          some (.comparison operator left right, after)

/-- The expression that some tokens form together. -/
def Expression.ofTokens? (tokens : List Token) : Option Expression :=
  match readExpression? tokens with
  | some (expression, []) => some expression
  | _ => none

/-- The parts of a token list between its commas; there is one part more than commas. -/
def splitAtCommas : List Token → List (List Token)
  | [] => [[]]
  | token :: rest =>
      if token.kind = .comma then [] :: splitAtCommas rest
      else
        match splitAtCommas rest with
        | [] => [[token]]
        | part :: parts => (token :: part) :: parts

/-- Read a body as a keyword argument. -/
def readKeywordArgument? (body : List Token) : Option Arguments := do
  let (left, rest) ← readValue? body
  match rest with
  | [] => none
  | token :: later => do
      let keyword ← token.keyword?
      let right ← Expression.ofTokens? later
      some (.keyword keyword (.value left) right)

/-- Read a body as a list of expressions. -/
def readArgumentList? (body : List Token) : Option Arguments :=
  match body with
  | [] => some (.list [])
  | _ => ((splitAtCommas body).mapM Expression.ofTokens?).map .list

/-- The arguments that the body of a call stands for. -/
def Arguments.ofTokens (body : List Token) : Arguments :=
  match readKeywordArgument? body with
  | some arguments => arguments
  | none => (readArgumentList? body).getD .unparsed

end PassageMarkup
