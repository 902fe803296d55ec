/-
Module: PassageMarkup.Token.Brackets
Layer: Token
Purpose: Runs of brackets. Scanning reads every `[[` and `]]` as a link bracket, although `[[[` may be a
  hook around a link and `]]` may close two hooks. Here such runs are split with the help of the
  brackets that are open: `[[` with a `[` directly behind it becomes `[` and `[[`, because a link never
  holds a hook, and `]]` while a hook is innermost becomes `]` and `]`. Closing brackets that close
  nothing are left for the grammar to refuse.
Imports: Token.Basic
Main exports: OpenBracket, closeHook, resolveFrom, resolveBrackets
-/
import PassageMarkup.Token.Basic

namespace PassageMarkup

/-- A bracket that has been opened and not yet closed. -/
inductive OpenBracket where
  | hook
  | link
deriving DecidableEq, Repr

/-- The open brackets, innermost first, after the innermost hook is closed, if a hook is innermost. -/
def closeHook : List OpenBracket → List OpenBracket
  | .hook :: outer => outer
  | opened => opened

/-- Resolve the bracket runs of a token list in front of which some brackets are open. -/
def resolveFrom (opened : List OpenBracket) : List Token → List Token
  | [] => []
  | token :: rest =>
      match token.kind with
      | .linkOpen =>
          match rest with
          | [] => [token]
          | next :: later =>
              if next.kind = .hookOpen ∧ next.touches token then
                ⟨.hookOpen, "[", token.start, token.start + 1⟩ ::
                  ⟨.linkOpen, "[[", token.start + 1, next.stop⟩ ::
                    resolveFrom (.link :: .hook :: opened) later
              else token :: resolveFrom (.link :: opened) (next :: later)
      | .hookOpen => token :: resolveFrom (.hook :: opened) rest
      | .hookClose => token :: resolveFrom (closeHook opened) rest
      | .linkClose =>
          match opened with
          | .link :: outer => token :: resolveFrom outer rest
          | .hook :: outer =>
              ⟨.hookClose, "]", token.start, token.start + 1⟩ ::
                ⟨.hookClose, "]", token.start + 1, token.stop⟩ ::
                  resolveFrom (closeHook outer) rest
          | [] => token :: resolveFrom [] rest
      | _ => token :: resolveFrom opened rest

/-- Resolve the bracket runs of a passage's tokens. -/
def resolveBrackets (tokens : List Token) : List Token :=
  resolveFrom [] tokens

end PassageMarkup
