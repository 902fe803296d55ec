/-
Module: PassageMarkup.Token.Kind
Layer: Token
Purpose: The kinds of token in a passage, in the order in which they are tried: at every place of the
  text the first kind that fits is taken, so `[[` comes before `[`, `->` before `-`, a duration before a
  number, and plain text last.
Imports: none
Main exports: Kind, Kind.all, Kind.name, Kind.priority, Kind.isBracket, Kind.isProse, Kind.isLinkText
-/

namespace PassageMarkup

/-- What a token is. -/
inductive Kind where
  /-- Blanks; they separate tokens and are no tokens themselves. -/
  | whitespace
  /-- `[[` -/
  | linkOpen
  /-- `]]` -/
  | linkClose
  /-- `->` -/
  | linkArrow
  /-- `[` -/
  | hookOpen
  /-- `]` -/
  | hookClose
  /-- `(name:`, the head of a call -/
  | callHead
  /-- `)` -/
  | closeParen
  /-- The binding word `to` -/
  | keyword
  /-- `$name` -/
  | variable
  /-- `"..."` with its quotes -/
  | string
  /-- `2s`, `500ms` -/
  | time
  | number
  | boolean
  /-- `>=`, `<=`, `>`, `<`, `is not`, `is`, `contains`, `does not contain` -/
  | comparison
  /-- `+`, `-`, `*`, `/` -/
  | arithmetic
  /-- `and`, `or` -/
  | logical
  /-- `'s`, `its`, `of` -/
  | property
  /-- `bind`, `2bind` -/
  | binding
  | comma
  /-- A word, or a single character that starts nothing else -/
  | text
deriving DecidableEq, Repr, Inhabited

/-- All kinds in the order in which they are tried. -/
def Kind.all : List Kind :=
  [.whitespace, .linkOpen, .linkClose, .linkArrow, .hookOpen, .hookClose, .callHead, .closeParen,
   .keyword, .variable, .string, .time, .number, .boolean, .comparison, .arithmetic, .logical,
   .property, .binding, .comma, .text]

/-- The place of a kind in the order of trying. -/
def Kind.priority (kind : Kind) : Nat :=
  Kind.all.idxOf kind

/-- The name of a kind in messages. -/
def Kind.name : Kind → String
  | .whitespace => "whitespace"
  | .linkOpen => "link-open"
  | .linkClose => "link-close"
  | .linkArrow => "link-arrow"
  | .hookOpen => "hook-open"
  | .hookClose => "hook-close"
  | .callHead => "macro-name"
  | .closeParen => "close-paren"
  | .keyword => "keyword"
  | .variable => "variable"
  | .string => "string"
  | .time => "time"
  | .number => "number"
  | .boolean => "boolean"
  | .comparison => "comparison"
  | .arithmetic => "arithmetic"
  | .logical => "logical"
  | .property => "property"
  | .binding => "binding"
  | .comma => "comma"
  | .text => "text"

/-- The tag of a kind in serialized tokens. It is the name, except for string literals. -/
def Kind.tag : Kind → String
  | .string => "string-literal"
  | kind => kind.name

/-- The kind that a tag stands for. -/
def Kind.ofTag? (tag : String) : Option Kind :=
  Kind.all.find? (·.tag == tag)

/-- A kind as listings show it. -/
def Kind.display (kind : Kind) : String :=
  "<" ++ kind.name ++ ">"

/-- Whether a kind opens or closes a link or a hook. -/
def Kind.isBracket : Kind → Bool
  | .linkOpen | .linkClose | .hookOpen | .hookClose => true
  | _ => false

/-- Whether a token of this kind is prose wherever it stands: it starts no construct, and it is no
literal that a hook would keep apart. -/
def Kind.isProse : Kind → Bool
  | .callHead | .variable | .string => false
  | kind => !kind.isBracket

/-- Whether a token of this kind may stand in one side of a link. -/
def Kind.isLinkText : Kind → Bool
  | .linkArrow => false
  | kind => !kind.isBracket

/-- Every kind is tried. -/
theorem Kind.mem_all (kind : Kind) : kind ∈ Kind.all := by
  cases kind <;> decide

end PassageMarkup
