/-
Module: PassageMarkup.Grammar.Reader
Layer: Grammar
Purpose: Reading phrases, one token at a time. The state of reading holds the hooks that are open, each
  with what stood before it, the finished phrases of the innermost level, and the phrase that is being
  read there. A step either takes the next token or refuses it; the grammar needs no second look, so
  the first token that is refused is the first that cannot continue the passage.
    passage  is any number of calls, links, hooks and runs of other tokens;
    call     is a head, tokens up to the closing parenthesis, with inner calls in balance and without
             brackets, and a hook if a `[` follows;
    link     is `[[`, nonempty segments with arrows between them, `]]`;
    hook     is `[`, any number of calls, links, hooks, strings, variables and runs of prose, `]`.
Imports: Grammar.Phrase
Main exports: Reading, OpenHook, Reader, Reader.step, Stop, readFrom, readPhrases
-/
import PassageMarkup.Grammar.Phrase

namespace PassageMarkup

/-- The phrase that is being read at the innermost level. -/
inductive Reading where
  /-- A run of prose, latest token first; no phrase where the run is empty. -/
  | prose (run : List Token)
  /-- The inside of a call, latest token first, with the number of inner calls that are open. -/
  | calling (head : Token) (inner : Nat) (body : List Token)
  /-- A call after its closing parenthesis, to which a hook may be attached. -/
  | called (call : CallText)
  /-- The inside of a link, latest token first. -/
  | linking (opening : Token) (inside : List Token)

/-- A hook that is open: the call it is attached to, its bracket, and the phrases in front of it,
latest first. -/
structure OpenHook where
  call : Option CallText
  opening : Token
  before : List Phrase

/-- The phrase that a hook becomes when it is closed. -/
def OpenHook.close (hook : OpenHook) (children : List Phrase) (closing : Token) : Phrase :=
  match hook.call with
  | none => .hook hook.opening children closing
  | some call => .hooked call hook.opening children closing

/-- The state of reading: the open hooks, innermost first, the finished phrases of the innermost level,
latest first, and the phrase being read there. -/
structure Reader where
  hooks : List OpenHook
  phrases : List Phrase
  reading : Reading

/-- The state before the first token. -/
def Reader.start : Reader :=
  ⟨[], [], .prose []⟩

/-- Put a finished run of prose, latest token first, before the phrases; an empty run is no phrase. -/
def endRun (run : List Token) (phrases : List Phrase) : List Phrase :=
  match run with
  | [] => phrases
  | _ => .prose run.reverse :: phrases

/-- Take a token between phrases, where `run` is the prose just before it. -/
def stepBetween (hooks : List OpenHook) (phrases : List Phrase) (run : List Token) (token : Token) :
    Option Reader :=
  match token.kind with
  | .hookOpen => some ⟨⟨none, token, endRun run phrases⟩ :: hooks, [], .prose []⟩
  | .linkOpen => some ⟨hooks, endRun run phrases, .linking token []⟩
  | .callHead => some ⟨hooks, endRun run phrases, .calling token 0 []⟩
  | .linkClose => none
  | .hookClose =>
      match hooks with
      | [] => none
      | hook :: outer =>
          some ⟨outer, hook.close (endRun run phrases).reverse token :: hook.before, .prose []⟩
  | .variable | .string =>
      match hooks with
      | [] => some ⟨hooks, phrases, .prose (token :: run)⟩
      | _ => some ⟨hooks, .value token :: endRun run phrases, .prose []⟩
  | _ => some ⟨hooks, phrases, .prose (token :: run)⟩

/-- The next state inside a call. -/
def stepCall (head : Token) (inner : Nat) (body : List Token) (token : Token) : Option Reading :=
  match token.kind, inner with
  | .callHead, _ => some (.calling head (inner + 1) (token :: body))
  | .closeParen, 0 => some (.called ⟨head, body.reverse, token⟩)
  | .closeParen, outer + 1 => some (.calling head outer (token :: body))
  | kind, _ => if kind.isBracket then none else some (.calling head inner (token :: body))

/-- Whether a link segment has not begun yet: the link is empty so far, or an arrow came last. -/
def awaitsSegment (inside : List Token) : Bool :=
  match inside with
  | [] => true
  | last :: _ => last.kind == .linkArrow

/-- Take a token, or refuse it. -/
def Reader.step (reader : Reader) (token : Token) : Option Reader :=
  match reader.reading with
  | .prose run => stepBetween reader.hooks reader.phrases run token
  | .called call =>
      if token.kind = .hookOpen then
        some ⟨⟨some call, token, reader.phrases⟩ :: reader.hooks, [], .prose []⟩
      else stepBetween reader.hooks (.call call :: reader.phrases) [] token
  | .calling head inner body =>
      (stepCall head inner body token).map fun reading => { reader with reading }
  | .linking opening inside =>
      if token.kind.isLinkText then
        some { reader with reading := .linking opening (token :: inside) }
      else if awaitsSegment inside then none
      else
        match token.kind with
        | .linkArrow => some { reader with reading := .linking opening (token :: inside) }
        | .linkClose =>
            some ⟨reader.hooks, .link opening inside.reverse token :: reader.phrases, .prose []⟩
        | _ => none

/-- The phrases of the passage, if it may end here. -/
def Reader.finish (reader : Reader) : Option (List Phrase) :=
  match reader.hooks, reader.reading with
  | [], .prose run => some (endRun run reader.phrases).reverse
  | [], .called call => some (.call call :: reader.phrases).reverse
  | _, _ => none

/-- Where and why reading stops. -/
inductive Stop where
  /-- A token that closes nothing, behind a complete passage. -/
  | trailing (token : Token)
  /-- A token that cannot continue the phrase being read. -/
  | unexpected (token : Token)
  /-- The end of the passage within a phrase. -/
  | atEnd
deriving DecidableEq, Repr

/-- Read the remaining tokens from a state on. -/
def readFrom (reader : Reader) : List Token → Except Stop (List Phrase)
  | [] =>
      match reader.finish with
      | some phrases => .ok phrases
      | none => .error .atEnd
  | token :: rest =>
      match reader.step token with
      | some next => readFrom next rest
      | none => .error (if reader.finish.isSome then .trailing token else .unexpected token)

/-- Read the phrases of a passage from its tokens. -/
def readPhrases (tokens : List Token) : Except Stop (List Phrase) :=
  readFrom .start tokens

end PassageMarkup
