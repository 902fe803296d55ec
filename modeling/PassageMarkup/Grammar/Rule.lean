/-
Module: PassageMarkup.Grammar.Rule
Layer: Grammar
Purpose: Rules of ordered choice. A rule looks at the front of some tokens and either takes a part of them,
  with a value, or fails at a place. A choice takes the first alternative that does not fail, an optional
  rule and a repetition end where theirs fails, and what they gave up is not forgotten: it is kept beside
  the answer as the failure to spare, and where a later rule fails nearer to the front, the failure that
  was kept counts. So the failure of a whole rule is the furthest of all that were met on the way.
Imports: Token.Basic
Main exports: Fault, further, Answer, Rule, Rule.take, Rule.andThen, Rule.orElse, Rule.optional,
  Rule.recursive, Rule.many, Rule.separated, Failure, Rule.run
-/
import PassageMarkup.Token.Basic

namespace PassageMarkup

/-- A place at which a rule failed, as the tokens from there on; it has none of them at the end. -/
abbrev Fault := List Token

/-- The further of a failure to spare and a later one: fewer tokens are left behind it. -/
def further (spare : Option Fault) (fault : Fault) : Fault :=
  match spare with
  | none => fault
  | some other => if other.length < fault.length then other else fault

/-- The further of two failures to spare. -/
def furthest (first second : Option Fault) : Option Fault :=
  match second with
  | none => first
  | some fault => some (further first fault)

/-- What a rule answers. -/
inductive Answer (α : Type) where
  /-- It took tokens and leaves the rest; `spare` is the furthest failure on the way. -/
  | taken (value : α) (rest : List Token) (spare : Option Fault)
  | failed (fault : Fault)

/-- Change the value of an answer. -/
def Answer.map {α β : Type} (f : α → β) : Answer α → Answer β
  | .taken value rest spare => .taken (f value) rest spare
  | .failed fault => .failed fault

/-- A rule reads from the front of some tokens. -/
abbrev Rule (α : Type) := List Token → Answer α

section Combinators

variable {α β : Type}

/-- Take nothing. -/
def Rule.pure (value : α) : Rule α := fun tokens =>
  .taken value tokens none

/-- Take one token, if there is a value for it. -/
def Rule.take (value? : Token → Option α) : Rule α
  | [] => .failed []
  | token :: rest =>
      match value? token with
      | some value => .taken value rest none
      | none => .failed (token :: rest)

/-- Take one token that is accepted. -/
def Rule.token (accepts : Token → Bool) : Rule Token :=
  .take fun token => if accepts token then some token else none

/-- Take one token of a kind. -/
def Rule.kind (kind : Kind) : Rule Token :=
  .token fun token => token.kind == kind

/-- Take any one token. -/
def Rule.any : Rule Token :=
  .token fun _ => true

/-- Take nothing, behind the last token only. -/
def Rule.atEnd : Rule Unit
  | [] => .taken () [] none
  | token :: rest => .failed (token :: rest)

/-- Change the value of a rule. -/
def Rule.map (f : α → β) (rule : Rule α) : Rule β := fun tokens =>
  (rule tokens).map f

/-- One rule and another one behind it. -/
def Rule.andThen (first : Rule α) (second : Rule β) : Rule (α × β) := fun tokens =>
  match first tokens with
  | .failed fault => .failed fault
  | .taken value rest spare =>
      match second rest with
      | .taken other later more => .taken (value, other) later (furthest spare more)
      | .failed fault => .failed (further spare fault)

/-- The first rule, or the second one where the first fails. -/
def Rule.orElse (first second : Rule α) : Rule α := fun tokens =>
  match first tokens with
  | .taken value rest spare => .taken value rest spare
  | .failed fault =>
      match second tokens with
      | .taken value rest spare => .taken value rest (furthest (some fault) spare)
      | .failed other => .failed (further (some fault) other)

/-- A rule, or nothing where it fails. -/
def Rule.optional (rule : Rule α) : Rule (Option α) :=
  (rule.map some).orElse (.pure none)

/-- Any one token in front of which a rule fails. -/
def Rule.unlike (rule : Rule α) : Rule Token := fun tokens =>
  match rule tokens with
  | .taken _ _ _ => .failed tokens
  | .failed _ => Rule.any tokens

/-- A rule that gives back what it has taken. -/
def Rule.rewind (rule : Rule α) : Rule α := fun tokens =>
  match rule tokens with
  | .taken value _ spare => .taken value tokens spare
  | .failed fault => .failed fault

/-- A rule that fails at once unless fewer than `size` tokens are left. -/
def Rule.below (size : Nat) (rule : Rule α) : Rule α := fun tokens =>
  if tokens.length < size then rule tokens else .failed tokens

/-- A rule that is defined by itself, looking into itself at most `depth` times. -/
def Rule.unroll (body : Rule α → Rule α) : Nat → Rule α
  | 0, tokens => .failed tokens
  | depth + 1, tokens => body (Rule.below tokens.length (unroll body depth)) tokens

/-- A rule that is defined by itself. It may come back to itself behind a token that it has taken, so it
does not more often than there are tokens. -/
def Rule.recursive (body : Rule α → Rule α) : Rule α := fun tokens =>
  Rule.unroll body (tokens.length + 1) tokens

/-- A rule as often as it takes tokens. -/
def Rule.many (rule : Rule α) : Rule (List α) :=
  .recursive fun others => ((rule.andThen others).map fun (value, values) => value :: values).orElse (.pure [])

/-- A rule once or more often. -/
def Rule.many1 (rule : Rule α) : Rule (List α) :=
  (rule.andThen rule.many).map fun (value, values) => value :: values

/-- A rule once or more often with a separator in between. A separator without the rule behind it is given
back. -/
def Rule.separated (rule : Rule α) (separator : Rule β) : Rule (List α) :=
  (rule.andThen ((separator.andThen rule).map Prod.snd).many).map fun (value, values) => value :: values

end Combinators

/-! ### Running a rule -/

/-- A failure as it is reported: the number of tokens in front of it, and the token found there. -/
structure Failure where
  place : Nat
  found : Option Token
deriving DecidableEq, Repr

/-- Run a rule on tokens, whatever it leaves of them. -/
def Rule.run {α : Type} (rule : Rule α) (tokens : List Token) : Except (List Failure) α :=
  match rule tokens with
  | .taken value _ _ => .ok value
  | .failed fault => .error [⟨tokens.length - fault.length, fault.head?⟩]

end PassageMarkup
