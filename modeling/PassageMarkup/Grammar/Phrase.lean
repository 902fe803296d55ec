/-
Module: PassageMarkup.Grammar.Phrase
Layer: Grammar
Purpose: Phrases, the grammatical parts of a passage with all their tokens. A phrase is a run of prose,
  a literal inside a hook, a link, a hook or a call, the latter with or without a hook attached. The
  tokens of a phrase in order are its yield.
Imports: Token.Basic
Main exports: CallText, Phrase, Phrase.yield, yieldAll
-/
import PassageMarkup.Token.Basic

namespace PassageMarkup

/-- A call from its head to its closing parenthesis. -/
structure CallText where
  head : Token
  body : List Token
  closing : Token
deriving DecidableEq, Repr, Inhabited

/-- The tokens of a call in order. -/
def CallText.yield (call : CallText) : List Token :=
  call.head :: call.body ++ [call.closing]

/-- A grammatical part of a passage. -/
inductive Phrase where
  | prose (run : List Token)
  | value (token : Token)
  | link (opening : Token) (inside : List Token) (closing : Token)
  | hook (opening : Token) (children : List Phrase) (closing : Token)
  | call (call : CallText)
  | hooked (call : CallText) (opening : Token) (children : List Phrase) (closing : Token)
deriving Inhabited

mutual

/-- The tokens of a phrase in order. -/
def Phrase.yield : Phrase → List Token
  | .prose run => run
  | .value token => [token]
  | .link opening inside closing => opening :: inside ++ [closing]
  | .hook opening children closing => opening :: yieldAll children ++ [closing]
  | .call text => text.yield
  | .hooked text opening children closing =>
      text.yield ++ opening :: yieldAll children ++ [closing]

/-- The tokens of phrases in order. -/
def yieldAll : List Phrase → List Token
  | [] => []
  | phrase :: rest => phrase.yield ++ yieldAll rest

end

end PassageMarkup
