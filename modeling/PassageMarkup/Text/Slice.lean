/-
Module: PassageMarkup.Text.Slice
Layer: Text
Purpose: Positions in a text are byte offsets of its UTF-8 form. This module cuts a text at such
  positions; a cut inside a character is moved behind that character.
Imports: Text.Blank
Main exports: byteLength, dropBytes, takeBytes, slice, part?, fragmentAt
-/
import PassageMarkup.Text.Blank

namespace PassageMarkup.Text

/-- Number of bytes of a character list in UTF-8. -/
def byteLength : List Char → Nat
  | [] => 0
  | c :: cs => c.utf8Size + byteLength cs

@[simp] theorem byteLength_append (xs ys : List Char) :
    byteLength (xs ++ ys) = byteLength xs + byteLength ys := by
  induction xs with
  | nil => simp [byteLength]
  | cons c cs ih => simp [byteLength, ih, Nat.add_assoc]

/-- What is left of a character list behind its first `n` bytes. -/
def dropBytes : Nat → List Char → List Char
  | 0, cs => cs
  | _ + 1, [] => []
  | n + 1, c :: cs => dropBytes (n + 1 - c.utf8Size) cs

/-- The first `n` bytes of a character list. -/
def takeBytes : Nat → List Char → List Char
  | 0, _ => []
  | _ + 1, [] => []
  | n + 1, c :: cs => c :: takeBytes (n + 1 - c.utf8Size) cs

/-- The part of a text between two byte offsets. -/
def slice (source : String) (start stop : Nat) : String :=
  String.ofList (takeBytes (stop - start) (dropBytes start source.toList))

/-- The part of a text between two byte offsets, if both are between characters of it. -/
def part? (source : String) (start stop : Nat) : Option String :=
  let onBoundary : Nat → Bool := fun offset => byteLength (takeBytes offset source.toList) == offset
  if onBoundary start && onBoundary stop then some (slice source start stop) else none

/-- Number of characters of the passage that an error quotes. -/
def fragmentLength : Nat := 24

/-- The start of the text at a byte offset, as an error quotes it. -/
def fragmentAt (source : String) (offset : Nat) : String :=
  String.ofList ((dropBytes offset source.toList).take fragmentLength)

/-- Dropping a whole part in front leaves the rest. -/
theorem dropBytes_append (xs ys : List Char) : dropBytes (byteLength xs) (xs ++ ys) = ys := by
  induction xs with
  | nil => simp [byteLength, dropBytes]
  | cons c cs ih =>
    have hpos : 0 < c.utf8Size := Char.utf8Size_pos c
    obtain ⟨k, hk⟩ : ∃ k, byteLength (c :: cs) = k + 1 :=
      ⟨byteLength (c :: cs) - 1, by simp [byteLength]; omega⟩
    rw [List.cons_append, hk, dropBytes, ← hk]
    simpa [byteLength] using ih

/-- Taking a whole part in front gives that part. -/
theorem takeBytes_append (xs ys : List Char) : takeBytes (byteLength xs) (xs ++ ys) = xs := by
  induction xs with
  | nil => simp [byteLength, takeBytes]
  | cons c cs ih =>
    have hpos : 0 < c.utf8Size := Char.utf8Size_pos c
    obtain ⟨k, hk⟩ : ∃ k, byteLength (c :: cs) = k + 1 :=
      ⟨byteLength (c :: cs) - 1, by simp [byteLength]; omega⟩
    rw [List.cons_append, hk, takeBytes, ← hk]
    simpa [byteLength] using ih

end PassageMarkup.Text
