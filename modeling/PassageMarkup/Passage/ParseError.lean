/-
Module: PassageMarkup.Passage.ParseError
Layer: Passage
Purpose: Why a passage is refused: the cause, the byte offset of the place, and the start of the text
  found there.
Imports: Catalog.Pattern, Text.Quoted
Main exports: ParseError, ParseError.kindName, ParseError.offset, ParseError.fragment, ParseError.message
-/
import PassageMarkup.Catalog.Pattern
import PassageMarkup.Text.Quoted

namespace PassageMarkup

instance exceptDecidableEq {ε α : Type} [DecidableEq ε] [DecidableEq α] : DecidableEq (Except ε α)
  | .error failure, .error other => decidable_of_iff (failure = other) ⟨congrArg _, Except.error.inj⟩
  | .ok value, .ok other => decidable_of_iff (value = other) ⟨congrArg _, Except.ok.inj⟩
  | .error _, .ok _ | .ok _, .error _ => isFalse nofun

/-- Why a passage is refused. -/
inductive ParseError where
  /-- No kind of token fits. -/
  | tokenization (offset : Nat) (fragment : String)
  /-- A phrase breaks off at a token of the kind `found`, or at the end of the passage. -/
  | noMatchingRule (found : String) (offset : Nat) (fragment : String)
  /-- The arguments of a known call do not fit its pattern. -/
  | callShape (name : String) (mismatch : Mismatch) (offset : Nat) (fragment : String)
  /-- A bracket closes nothing. -/
  | trailingInput (offset : Nat) (fragment : String)
deriving DecidableEq, Repr

/-- The name of the cause. -/
def ParseError.kindName : ParseError → String
  | .tokenization .. => "TokenizationError"
  | .noMatchingRule .. => "NoMatchingRuleError"
  | .callShape .. => "MacroShapeError"
  | .trailingInput .. => "UnexpectedTrailingInputError"

/-- The byte offset at which the refused part starts. -/
def ParseError.offset : ParseError → Nat
  | .tokenization position _ => position
  | .noMatchingRule _ position _ => position
  | .callShape _ _ position _ => position
  | .trailingInput position _ => position

/-- The start of the text at the offset. -/
def ParseError.fragment : ParseError → String
  | .tokenization _ quoted => quoted
  | .noMatchingRule _ _ quoted => quoted
  | .callShape _ _ _ quoted => quoted
  | .trailingInput _ quoted => quoted

/-- A place as messages name it. -/
def placeMessage (offset : Nat) (fragment : String) : String :=
  " at offset " ++ toString offset ++ ": " ++ Text.quote fragment

/-- What does not fit in a call; arguments are counted from one here. -/
def mismatchMessage (name : String) (mismatch : Mismatch) : String :=
  "macro (" ++ name ++ ":)" ++
    (match mismatch.position with
      | some index => " argument " ++ toString (index + 1)
      | none => "") ++
    ": expected " ++ mismatch.expected ++ ", found " ++ mismatch.actual

/-- The cause in words. -/
def ParseError.message : ParseError → String
  | .tokenization position quoted => "no token pattern matches" ++ placeMessage position quoted
  | .noMatchingRule found position quoted =>
      "no grammar rule matches " ++ found ++ placeMessage position quoted
  | .callShape name mismatch _ _ => mismatchMessage name mismatch
  | .trailingInput position quoted => "unexpected trailing input" ++ placeMessage position quoted

end PassageMarkup
