/-
Module: PassageMarkup.Text.Ranges
Layer: Text
Purpose: Character classes given by a list of closed code point ranges. A class of characters beyond
  ASCII is data, so each one is a table of ranges and membership is one test over that table.
Imports: none
Main exports: CodePointRange, inRanges
-/

namespace PassageMarkup.Text

/-- A closed range of code points, its first and its last member. -/
abbrev CodePointRange := Nat × Nat

/-- Whether a code point lies in one of the ranges of a table. -/
def inRanges (table : List CodePointRange) (n : Nat) : Bool :=
  table.any fun range => range.1 ≤ n && n ≤ range.2

theorem inRanges_iff {table : List CodePointRange} {n : Nat} :
    inRanges table n = true ↔ ∃ range ∈ table, range.1 ≤ n ∧ n ≤ range.2 := by
  simp [inRanges]

end PassageMarkup.Text
