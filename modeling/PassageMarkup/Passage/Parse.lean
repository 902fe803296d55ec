/-
Module: PassageMarkup.Passage.Parse
Layer: Passage
Purpose: From a passage to its tree. The tokens are scanned and their bracket runs resolved; items are read
  as long as one can be read, and if tokens are left, the item in front of them is read once more to say
  why. What is sketched then becomes nodes; on the way each call is looked up in the catalog, in the order
  of the passage and a call before the inside of its hook. The grammar comes first: a passage that breaks it
  is refused for that, whatever its calls are.
Imports: Catalog.Basic, Grammar.Item, Passage.ParseError, Token.Brackets, Token.Scan
Main exports: tokenize, tokensOf, Sketch.nodes, sketchedNodes, classify, stopError, parse
-/
import PassageMarkup.Catalog.Basic
import PassageMarkup.Grammar.Item
import PassageMarkup.Passage.ParseError
import PassageMarkup.Token.Brackets
import PassageMarkup.Token.Scan

namespace PassageMarkup

/-! ### Tokens -/

/-- The tokens of a passage, or the error of the place that no kind of token fits. -/
def tokenize (source : String) : Except ParseError (List Token) :=
  (scan? source).mapError fun offset => .tokenization offset (Text.fragmentAt source offset)

/-- The tokens of a passage with their bracket runs resolved. -/
def tokensOf (source : String) : List Token :=
  resolveBrackets (scan source)

/-! ### From sketches to nodes -/

/-- The node of a checked call. The text of an unknown call is that of its span. -/
def callNode (source : String) (name : String) (span : Span) (arguments : Arguments)
    (pattern : Option Pattern) (hook : Option (List Node)) : Node :=
  match pattern with
  | some pattern => .call ⟨name, arguments.keyword?, arguments.expressions, pattern⟩ hook
  | none => .unknownCall name ((Text.part? source span.start span.stop).getD "") hook

mutual

/-- The nodes of a sketch: one, or none for blank text. -/
def Sketch.nodes (source : String) (catalog : Catalog) : Sketch → Except ParseError (List Node)
  | .text span =>
      let content := extractText source span
      .ok (if Text.allBlank content then [] else [.text content])
  | .literal value => .ok [.literal value]
  | .link link => .ok [.link link]
  | .hook children => do
      let nodes ← sketchedNodes source catalog children
      return [.hook nodes]
  | .call name span arguments hook => do
      let pattern ← (catalog.check name arguments).mapError fun mismatch =>
        .callShape name mismatch span.start (Text.fragmentAt source span.start)
      let nodes ← sketchedHook source catalog hook
      return [callNode source name span arguments pattern nodes]

/-- The nodes of sketches in order. -/
def sketchedNodes (source : String) (catalog : Catalog) : List Sketch → Except ParseError (List Node)
  | [] => .ok []
  | sketch :: rest => do
      let first ← sketch.nodes source catalog
      let others ← sketchedNodes source catalog rest
      return first ++ others

/-- The nodes in the hook of a call. -/
def sketchedHook (source : String) (catalog : Catalog) :
    Option (List Sketch) → Except ParseError (Option (List Node))
  | none => .ok none
  | some children => do
      let nodes ← sketchedNodes source catalog children
      return some nodes

end

/-! ### Why a passage is refused -/

/-- The furthest of some failures, the last of them where several are. -/
def Failure.furthest? (failures : List Failure) : Option Failure :=
  failures.foldl (fun found failure =>
    match found with
    | some other => if failure.place < other.place then some other else some failure
    | none => some failure) none

/-- The error of the end of a passage, where more was to come. -/
def endError (source : String) : ParseError :=
  .noMatchingRule "end of input" source.utf8ByteSize (Text.fragmentAt source source.utf8ByteSize)

/-- The error of a place at which nothing can stand. -/
def trailingError (source : String) (offset : Nat) : ParseError :=
  .trailingInput offset (Text.fragmentAt source offset)

/-- The error for the failures of a rule on some tokens. Where not even the first token was taken, nothing
can stand in front of the tokens. -/
def classify (source : String) (tokens : List Token) (failures : List Failure) : ParseError :=
  match Failure.furthest? failures with
  | none => endError source
  | some failure =>
      match failure.found with
      | none => endError source
      | some token =>
          if 0 < failure.place then
            .noMatchingRule token.kind.name token.start (Text.fragmentAt source token.start)
          else trailingError source ((tokens.head?.map Token.start).getD source.utf8ByteSize)

/-- Why reading items has stopped in front of some tokens: the next item is read by itself. -/
def stopError (source : String) (rest : List Token) : ParseError :=
  match (Grammar.item source).run rest with
  | .ok _ => trailingError source ((rest.head?.map Token.start).getD source.utf8ByteSize)
  | .error failures => classify source rest failures

/-- The tree of a passage, its calls checked against a catalog. -/
def parse (catalog : Catalog) (source : String) : Except ParseError Program := do
  let tokens ← tokenize source
  let (sketches, rest) ← ((Grammar.items source).run (resolveBrackets tokens)).mapError (classify source [])
  if rest.isEmpty then
    let nodes ← sketchedNodes source catalog sketches
    return ⟨nodes⟩
  else throw (stopError source rest)

end PassageMarkup
