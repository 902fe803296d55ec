/-
Module: PassageMarkup.Grammar.Item
Layer: Grammar
Purpose: The rules of a passage, and the sketch of a tree that they draw.
    items  are any number of items;
    item   is a call, a link, a hook, or a run of other tokens than brackets and heads of calls;
    call   is a head, arguments with `)`, and a hook if a `[` follows;
    link   is `[[`, segments with arrows between them, `]]`;
    hook   is `[`, any number of calls, links, hooks, strings, variables and runs of prose, `]`.
  A `[` right behind a call commits to its hook: a broken hook breaks the call, and is not tried again as a
  hook of its own. The sketch has spans of the source where the tree has texts, and the arguments of calls
  are not checked yet.
Imports: Grammar.Argument, Passage.Node, Text.Slice
Main exports: Span, Span.bounds, extractText, Sketch, Link.ofSegments, Grammar.link, Grammar.hook,
  Grammar.call, Grammar.item, Grammar.items
-/
import PassageMarkup.Grammar.Argument
import PassageMarkup.Passage.Node
import PassageMarkup.Text.Slice

namespace PassageMarkup

/-! ### Spans of the source -/

/-- The bytes of the source from one offset up to another. -/
structure Span where
  start : Nat
  stop : Nat
deriving DecidableEq, Repr, Inhabited

/-- The bytes of a token. -/
def Token.span (token : Token) : Span :=
  ⟨token.start, token.stop⟩

/-- The span that covers all of some spans. -/
def Span.bounds (spans : List Span) : Span :=
  ⟨(spans.map Span.start).min?.getD 0, (spans.map Span.stop).max?.getD 0⟩

/-- The text of a span, trimmed; a span that is empty or not inside the source has none. -/
def extractText (source : String) (span : Span) : String :=
  if span.start < span.stop ∧ span.stop ≤ source.utf8ByteSize then
    match Text.part? source span.start span.stop with
    | some text => Text.trim text
    | none => ""
  else ""

/-! ### Sketches -/

/-- A node of a passage as its rule draws it. -/
inductive Sketch where
  /-- A run of prose, from its first token to its last. -/
  | text (span : Span)
  | literal (value : Literal)
  | link (link : Link)
  | hook (children : List Sketch)
  /-- A call; the span is that of the call without its hook. -/
  | call (name : String) (span : Span) (arguments : Arguments) (hook : Option (List Sketch))
deriving Inhabited

/-- The link with given segments between its brackets. The last one is the target, if there are more. -/
def Link.ofSegments (source : String) (segments : List Span) : Link :=
  match segments.getLast?, segments.dropLast with
  | some target, first :: others =>
      .ofSides (extractText source (.bounds (first :: others))) (extractText source target)
  | _, _ => .toSelf (extractText source (.bounds segments))

/-- The name in the head of a call, without parentheses in front and colons behind. -/
def nameOfHead (text : String) : String :=
  String.ofList ((text.toList.dropWhile (· == '(')).reverse.dropWhile (· == ':')).reverse

/-- Whether a token is running text outside all hooks. -/
def Token.isTopLevelText (token : Token) : Bool :=
  token.kind.isProse || token.kind == .variable || token.kind == .string

/-- The literal that a token is on its own inside a hook: a string or a variable. -/
def Token.hookLiteral? (token : Token) : Option Literal :=
  if token.kind = .string ∨ token.kind = .variable then token.literal? else none

/-! ### Rules -/

/-- A run of tokens that are accepted, at least one. -/
def Grammar.tokenRun (accepts : Token → Bool) : Rule Span :=
  (Rule.token accepts).many1.map fun tokens => .bounds (tokens.map Token.span)

/-- A run of tokens as text. -/
def Grammar.text (accepts : Token → Bool) : Rule Sketch :=
  (tokenRun accepts).map .text

/-- A segment of a link. -/
def Grammar.segment : Rule Span :=
  tokenRun fun token => token.kind.isLinkText

/-- A link. -/
def Grammar.link (source : String) : Rule Link :=
  (((Rule.kind .linkOpen).andThen (segment.separated (.kind .linkArrow))).andThen (.kind .linkClose)).map
    fun ((_, segments), _) => .ofSegments source segments

/-- A call, a link, a hook or running text, in this order. -/
def Grammar.anyOf (source : String) (call : Rule Sketch) (hook : Rule (List Sketch))
    (running : Rule Sketch) : Rule Sketch :=
  call.orElse (((link source).map .link).orElse ((hook.map .hook).orElse running))

/-- Running text outside all hooks. -/
def Grammar.topText : Rule Sketch :=
  text Token.isTopLevelText

/-- What is neither call, link nor hook inside a hook: a string, a variable or a run of prose. -/
def Grammar.hookText : Rule Sketch :=
  ((Rule.take Token.hookLiteral?).map .literal).orElse (text fun token => token.kind.isProse)

/-- A hook, given the rule of a call. -/
def Grammar.hook (source : String) (call : Rule Sketch) : Rule (List Sketch) :=
  .recursive fun hook =>
    (((Rule.kind .hookOpen).andThen (anyOf source call hook hookText).many).andThen (.kind .hookClose)).map
      fun ((_, children), _) => children

/-- The hook of a call, given the rule of a call: there is none where no `[` follows. -/
def Grammar.attachedHook (source : String) (call : Rule Sketch) : Rule (Option (List Sketch)) :=
  ((hook source call).map some).orElse
    (((Rule.kind .hookOpen).unlike.rewind.map fun _ => none).orElse (Rule.atEnd.map fun _ => none))

/-- A call with its hook. -/
def Grammar.call (source : String) : Rule Sketch :=
  .recursive fun call =>
    (((Rule.kind .callHead).andThen arguments).andThen (attachedHook source call)).map
      fun ((head, arguments, closing), hook) =>
        .call (nameOfHead head.text) ⟨head.start, closing.stop⟩ arguments hook

/-- An item outside all hooks. -/
def Grammar.item (source : String) : Rule Sketch :=
  anyOf source (call source) (hook source (call source)) topText

/-- As many items as possible, and the tokens in front of which no further item can be read. -/
def Grammar.items (source : String) : Rule (List Sketch × List Token) :=
  (((item source).many.andThen Rule.any.many).andThen .atEnd).map Prod.fst

end PassageMarkup
