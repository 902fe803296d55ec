/-
Module: PassageMarkup.Passage.Phrases
Layer: Passage
Purpose: The nodes of a passage by way of its phrases, which keep all their tokens. A phrase becomes a node,
  or none if it is blank prose; on the way each call is looked up in the catalog, in the order of the
  passage and a call before the inside of its hook. What the rules of the grammar draw and what becomes of
  it is the same, and the theory is about phrases, where every node still has its tokens.
Imports: Grammar.Expression, Grammar.Reader, Passage.Parse
Main exports: spanText, Link.ofTokens, CallText.node, Phrase.nodes, nodesOf, Stop.toError, phrasesOf
-/
import PassageMarkup.Grammar.Expression
import PassageMarkup.Grammar.Reader
import PassageMarkup.Passage.Parse

namespace PassageMarkup

/-- The text from the first to the last of some tokens, trimmed. -/
def spanText (source : String) (tokens : List Token) : String :=
  match tokens.head?, tokens.getLast? with
  | some first, some last => Text.trim (Text.slice source first.start last.stop)
  | _, _ => ""

/-- The tokens before and behind the last arrow, if there is one. -/
def splitAtLastArrow? (inside : List Token) : Option (List Token × List Token) :=
  let isSide : Token → Bool := fun token => token.kind != .linkArrow
  match inside.reverse.dropWhile isSide with
  | [] => none
  | _ :: text => some (text.reverse, (inside.reverse.takeWhile isSide).reverse)

/-- The link with given tokens between its brackets. -/
def Link.ofTokens (source : String) (inside : List Token) : Link :=
  match splitAtLastArrow? inside with
  | some (text, target) => .ofSides (spanText source text) (spanText source target)
  | none => .toSelf (spanText source inside)

/-- The name in the head of a call, without its parenthesis and colon. -/
def CallText.name (call : CallText) : String :=
  String.ofList (call.head.text.toList.drop 1).dropLast

/-- The text of a call up to its closing parenthesis. -/
def CallText.raw (source : String) (call : CallText) : String :=
  Text.slice source call.head.start call.closing.stop

/-- Check a call against the catalog. -/
def CallText.check (source : String) (catalog : Catalog) (call : CallText) :
    Except ParseError (Option Pattern) :=
  (catalog.check call.name (Arguments.ofTokens call.body)).mapError fun mismatch =>
    .callShape call.name mismatch call.head.start (Text.fragmentAt source call.head.start)

/-- The node of a checked call. -/
def CallText.node (source : String) (call : CallText) (pattern : Option Pattern)
    (hook : Option (List Node)) : Node :=
  let arguments := Arguments.ofTokens call.body
  match pattern with
  | some pattern => .call ⟨call.name, arguments.keyword?, arguments.expressions, pattern⟩ hook
  | none => .unknownCall call.name (call.raw source) hook

/-- The node of a run of prose; a run of nothing but blanks has none. -/
def proseNodes (source : String) (run : List Token) : List Node :=
  let content := spanText source run
  if Text.allBlank content then [] else [.text content]

mutual

/-- The nodes of a phrase: one, or none for blank prose. -/
def Phrase.nodes (source : String) (catalog : Catalog) : Phrase → Except ParseError (List Node)
  | .prose run => .ok (proseNodes source run)
  | .value token => .ok (token.literal?.toList.map .literal)
  | .link _ inside _ => .ok [.link (.ofTokens source inside)]
  | .hook _ children _ => do
      let nodes ← nodesOf source catalog children
      return [.hook nodes]
  | .call text => do
      let pattern ← text.check source catalog
      return [text.node source pattern none]
  | .hooked text _ children _ => do
      let pattern ← text.check source catalog
      let nodes ← nodesOf source catalog children
      return [text.node source pattern (some nodes)]

/-- The nodes of phrases in order. -/
def nodesOf (source : String) (catalog : Catalog) : List Phrase → Except ParseError (List Node)
  | [] => .ok []
  | phrase :: rest => do
      let first ← phrase.nodes source catalog
      let others ← nodesOf source catalog rest
      return first ++ others

end

/-- The error of a passage at which reading stops. -/
def Stop.toError (source : String) : Stop → ParseError
  | .trailing token => .trailingInput token.start (Text.fragmentAt source token.start)
  | .unexpected token =>
      .noMatchingRule token.kind.name token.start (Text.fragmentAt source token.start)
  | .atEnd =>
      .noMatchingRule "end of input" source.utf8ByteSize
        (Text.fragmentAt source source.utf8ByteSize)

/-- The phrases of a passage. -/
def phrasesOf (source : String) : Except ParseError (List Phrase) := do
  let tokens ← tokenize source
  (readPhrases (resolveBrackets tokens)).mapError (Stop.toError source)

end PassageMarkup
