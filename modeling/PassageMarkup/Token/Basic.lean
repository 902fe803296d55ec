/-
Module: PassageMarkup.Token.Basic
Layer: Token
Purpose: Tokens: a kind, the exact text, and the byte range of that text in the passage.
Imports: Token.Kind
Main exports: Token, Token.touches
-/
import PassageMarkup.Token.Kind

namespace PassageMarkup

/-- A classified piece of a passage, from byte `start` up to byte `stop`. -/
structure Token where
  kind : Kind
  text : String
  start : Nat
  stop : Nat
deriving DecidableEq, Repr, Inhabited

/-- Whether a token starts exactly where another one ends. -/
def Token.touches (next previous : Token) : Bool :=
  next.start == previous.stop

end PassageMarkup
