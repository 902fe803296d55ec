/-
Module: PassageMarkup.Proofs.Characters
Layer: Proofs
Purpose: How the character classes of the scanner lie to each other. Digits and the characters of names
  are word characters; blanks and the characters that end a word are not. The classes beyond ASCII are
  tables of code point ranges, so each fact is an inclusion or a disjointness of two tables and is
  decided range by range, never character by character.
Imports: Token.Recognise
Main exports: isWord_of_isDigit, isWord_of_isNameRest, not_isWord_of_isBlank, not_isWord_of_endsWord,
  not_isBlank_of_isWord
-/
import PassageMarkup.Token.Recognise

namespace PassageMarkup.Text

/-! ### Tables of ranges

The two checks below run in the kernel, hence the Boolean form and the binary comparison of numbers. -/

/-- Whether every range of one table lies inside a range of the other. -/
def rangesIncluded (inner outer : List CodePointRange) : Bool :=
  inner.all fun range => outer.any fun wide => wide.1.ble range.1 && range.2.ble wide.2

/-- Whether no range of one table meets a range of the other. -/
def rangesDisjoint (first second : List CodePointRange) : Bool :=
  first.all fun range => second.all fun other => range.2.blt other.1 || other.2.blt range.1

/-- A table whose ranges each lie inside a range of another table is included in it. -/
theorem inRanges_of_rangesIncluded {inner outer : List CodePointRange}
    (hincluded : rangesIncluded inner outer = true) {n : Nat} (h : inRanges inner n = true) :
    inRanges outer n = true := by
  simp only [rangesIncluded, List.all_eq_true, List.any_eq_true, Bool.and_eq_true,
    Nat.ble_eq] at hincluded
  obtain ⟨range, hmem, hlow, hhigh⟩ := inRanges_iff.1 h
  obtain ⟨wide, hwide, hstart, hstop⟩ := hincluded range hmem
  exact inRanges_iff.2 ⟨wide, hwide, Nat.le_trans hstart hlow, Nat.le_trans hhigh hstop⟩

/-- Two tables whose ranges never meet have no code point in common. -/
theorem not_inRanges_of_rangesDisjoint {first second : List CodePointRange}
    (hdisjoint : rangesDisjoint first second = true) {n : Nat} (h : inRanges first n = true) :
    inRanges second n = false := by
  simp only [rangesDisjoint, List.all_eq_true, Bool.or_eq_true, Nat.blt_eq] at hdisjoint
  obtain ⟨range, hmem, hlow, hhigh⟩ := inRanges_iff.1 h
  rw [Bool.eq_false_iff]
  intro hsecond
  obtain ⟨other, hother, hstart, hstop⟩ := inRanges_iff.1 hsecond
  have hapart := hdisjoint range hmem other hother
  omega

/-- Every digit beyond ASCII is a word character. -/
theorem digitRanges_included : rangesIncluded digitRanges wordRanges = true := by
  decide +kernel

/-- No blank is a word character beyond ASCII. -/
theorem blankRanges_disjoint : rangesDisjoint blankRanges wordRanges = true := by
  decide +kernel

/-! ### Classes of characters -/

/-- An ASCII letter or digit lies above the blanks of ASCII and below the tables. -/
theorem toNat_of_isAlphanum {c : Char} (h : c.isAlphanum = true) :
    0x30 ≤ c.toNat ∧ c.toNat < 0x80 := by
  rcases Bool.or_eq_true_iff.1 h with halpha | hdigit
  · rcases Bool.or_eq_true_iff.1 halpha with hupper | hlower
    · have hrange : 65 ≤ c.toNat ∧ c.toNat ≤ 90 := of_decide_eq_true hupper
      omega
    · obtain ⟨hlow, hhigh⟩ := Bool.and_eq_true_iff.1 hlower
      have hlow : 97 ≤ c.toNat := of_decide_eq_true hlow
      have hhigh : c.toNat ≤ 122 := of_decide_eq_true hhigh
      omega
  · obtain ⟨hlow, hhigh⟩ := Bool.and_eq_true_iff.1 hdigit
    have hlow : 48 ≤ c.toNat := of_decide_eq_true hlow
    have hhigh : c.toNat ≤ 57 := of_decide_eq_true hhigh
    omega

/-- The blanks of ASCII are the layout characters and the space. -/
theorem toNat_of_isBlank {c : Char} (h : isBlank c = true) : c.toNat ≤ 0x20 ∨ 0x80 ≤ c.toNat := by
  have hranges : ∀ range ∈ blankRanges, range.2 ≤ 0x20 ∨ 0x80 ≤ range.1 := by decide
  obtain ⟨range, hmem, hstart, hstop⟩ := inRanges_iff.1 h
  have hrange := hranges range hmem
  omega

theorem isWord_of_isAlphanum {c : Char} (h : c.isAlphanum = true) : isWord c = true := by
  simp [isWord, toNat_of_isAlphanum h, h]

/-- A digit is a word character. -/
theorem isWord_of_isDigit {c : Char} (h : isDigit c = true) : isWord c = true := by
  unfold isDigit at h
  split at h
  · have hdigit : c.isDigit = true := by simpa [Char.isDigit, Char.le_def] using h
    exact isWord_of_isAlphanum (by simp [Char.isAlphanum, hdigit])
  · next hhigh =>
    unfold isWord
    rw [if_neg hhigh]
    exact inRanges_of_rangesIncluded digitRanges_included h

/-- A blank is no word character. -/
theorem not_isWord_of_isBlank {c : Char} (h : isBlank c = true) : isWord c = false := by
  unfold isWord
  split
  · next hlow =>
    have hblank := toNat_of_isBlank h
    rw [Bool.eq_false_iff]
    intro hword
    rcases Bool.or_eq_true_iff.1 hword with halnum | hunderscore
    · have hbounds := toNat_of_isAlphanum halnum
      omega
    · rw [beq_iff_eq] at hunderscore
      subst hunderscore
      exact absurd h (by decide)
  · exact not_inRanges_of_rangesDisjoint blankRanges_disjoint h

/-- A word character is no blank. -/
theorem not_isBlank_of_isWord {c : Char} (h : isWord c = true) : isBlank c = false := by
  rw [Bool.eq_false_iff]
  intro hblank
  rw [not_isWord_of_isBlank hblank] at h
  exact Bool.false_ne_true h

end PassageMarkup.Text

namespace PassageMarkup.Recognise

open PassageMarkup.Text

/-- The characters that continue a name are word characters. -/
theorem isWord_of_isNameRest {c : Char} (h : isNameRest c = true) : isWord c = true := by
  rcases Bool.or_eq_true_iff.1 h with halnum | hunderscore
  · exact isWord_of_isAlphanum halnum
  · rw [beq_iff_eq] at hunderscore
    subst hunderscore
    decide

/-- The characters that start a name also continue it. -/
theorem isNameRest_of_isNameStart {c : Char} (h : isNameStart c = true) : isNameRest c = true := by
  rcases Bool.or_eq_true_iff.1 h with halpha | hunderscore
  · simp [isNameRest, Char.isAlphanum, halpha]
  · simp [isNameRest, hunderscore]

/-- A character that ends a word is no word character. -/
theorem not_isWord_of_endsWord {c : Char} (h : endsWord c = true) : isWord c = false := by
  rcases Bool.or_eq_true_iff.1 h with hblank | hspecial
  · exact not_isWord_of_isBlank hblank
  · have hall : "[]()$\",<>+*/-".toList.all (fun special => !isWord special) = true := by decide
    have hmem : c ∈ "[]()$\",<>+*/-".toList := by simpa using hspecial
    simpa using List.all_eq_true.1 hall c hmem

end PassageMarkup.Recognise
