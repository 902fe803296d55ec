/-
Module: PassageMarkup.Token.Scan
Layer: Token
Purpose: From a passage to its tokens. At every place the first kind that fits a nonempty part takes its
  characters; blanks are dropped, everything else becomes a token with its byte range. A place that no
  kind fits would end the scan with its byte offset.
Imports: Text.Slice, Token.Basic, Token.Recognise
Main exports: leading?, scanFrom?, scan?, scan
-/
import PassageMarkup.Text.Slice
import PassageMarkup.Token.Basic
import PassageMarkup.Token.Recognise

namespace PassageMarkup

open Text

/-- The token at the start of some characters, of the first kind that fits a nonempty part of them:
its kind and its number of characters. -/
def leading? (cs : List Char) : Option (Kind × Nat) :=
  Kind.all.findSome? fun kind =>
    ((kind.recognise cs).filter (0 < ·)).map fun count => (kind, count)

/-- The tokens of the characters from byte `offset` on, of which the first `skip` belong to a token
already taken, or the byte offset at which no kind fits. -/
def scanFrom? (offset : Nat) : (skip : Nat) → List Char → Except Nat (List Token)
  | _, [] => .ok []
  | skip + 1, c :: cs => scanFrom? (offset + c.utf8Size) skip cs
  | 0, c :: cs =>
      match leading? (c :: cs) with
      | none => .error offset
      | some (kind, count) => do
          let rest ← scanFrom? (offset + c.utf8Size) (count - 1) cs
          if kind = .whitespace then return rest
          else
            let taken := (c :: cs).take count
            return ⟨kind, String.ofList taken, offset, offset + byteLength taken⟩ :: rest

/-- The tokens of a passage, or the byte offset at which no kind fits. -/
def scan? (source : String) : Except Nat (List Token) :=
  scanFrom? 0 0 source.toList

/-- The tokens of a passage; there are none where the scan ends early. -/
def scan (source : String) : List Token :=
  match scan? source with
  | .ok tokens => tokens
  | .error _ => []

end PassageMarkup
