/-
Module: PassageMarkup.Proofs.StringSpelling
Layer: Proofs
Purpose: What stands between the quotes of a string. Two rules are at work there: the scan looks for the quote
  that closes the string, and reading resolves the escapes. Both are read off one relation between the
  characters and the value they stand for, which has no rule for a backslash that ends the characters; so
  the scan and the reading agree on every string, and every value has characters that stand for it.
Imports: Grammar.Expression, Proofs.Recognisers
Main exports: StandsFor, StandsFor.unescape, StandsFor.unquote, StandsFor.closingQuote,
  exists_standsFor_of_string, escape, standsFor_escape, standsFor_of_plain
-/
import PassageMarkup.Grammar.Expression
import PassageMarkup.Proofs.Recognisers

namespace PassageMarkup

open Text Recognise

/-- The characters between the quotes of a string, and the value they stand for. A character stands for
itself, unless it is a quote or a backslash; a backslash makes the character behind it stand for itself,
which may be any but a line feed. -/
inductive StandsFor : List Char → List Char → Prop where
  | nil : StandsFor [] []
  | plain {c : Char} {content value : List Char} (hquote : c ≠ '"') (hescape : c ≠ '\\')
      (hrest : StandsFor content value) : StandsFor (c :: content) (c :: value)
  | escaped {c : Char} {content value : List Char} (hfeed : c ≠ '\n')
      (hrest : StandsFor content value) : StandsFor ('\\' :: c :: content) (c :: value)

/-! ### Reading the value -/

theorem unescape_plain {c : Char} (h : c ≠ '\\') (cs : List Char) :
    unescape (c :: cs) = c :: unescape cs := by
  rw [unescape]
  · exact fun hc _ => h hc
  · exact fun _ _ hc _ => h hc

/-- Resolving the escapes gives the value. -/
theorem StandsFor.unescape {content value : List Char} (h : StandsFor content value) :
    unescape content = value := by
  induction h with
  | nil => rfl
  | plain _ hescape _ ih => rw [unescape_plain hescape, ih]
  | escaped _ _ ih => rw [PassageMarkup.unescape, ih]

/-- Between quotes only the escapes are resolved. -/
theorem unquote_quoted (content : List Char) : unquote ('"' :: (content ++ ['"'])) = unescape content := by
  simp [unquote]

theorem StandsFor.unquote {content value : List Char} (h : StandsFor content value) :
    unquote ('"' :: (content ++ ['"'])) = value := by
  rw [unquote_quoted, h.unescape]

/-! ### Finding the closing quote -/

/-- The quote behind the characters of a string closes it. -/
theorem StandsFor.closingQuote {content value : List Char} (h : StandsFor content value)
    (rest : List Char) : closingQuote (content ++ '"' :: rest) = some (content.length + 1) := by
  induction h with
  | nil => rfl
  | plain hquote hescape _ ih =>
      rw [List.cons_append, closingQuote_other hquote hescape, ih]
      rfl
  | escaped hfeed _ ih => simp [Recognise.closingQuote, hfeed, ih]

/-- What completes a string are characters that stand for a value, and a quote. -/
theorem exists_standsFor_of_closingQuote {cs : List Char} {n : Nat} (h : closingQuote cs = some n) :
    ∃ content value, cs.take n = content ++ ['"'] ∧ StandsFor content value := by
  fun_induction closingQuote cs generalizing n with
  | case1 => simp at h
  | case2 rest =>
      obtain rfl : 1 = n := Option.some.inj h
      exact ⟨[], [], rfl, .nil⟩
  | case3 => simp at h
  | case4 cs => simp at h
  | case5 c cs hfeed ih =>
      rcases Option.map_eq_some_iff.1 h with ⟨m, hm, rfl⟩
      rcases ih hm with ⟨content, value, htake, hstands⟩
      exact ⟨_, _, by rw [List.take_succ_cons, List.take_succ_cons, htake]; rfl, .escaped hfeed hstands⟩
  | case6 c cs hquote hend hmore ih =>
      rcases Option.map_eq_some_iff.1 h with ⟨m, hm, rfl⟩
      rcases ih hm with ⟨content, value, htake, hstands⟩
      exact ⟨_, _, by rw [List.take_succ_cons, htake]; rfl, .plain hquote (ne_escape hend hmore) hstands⟩

/-- A string is characters that stand for a value, between two quotes. -/
theorem exists_standsFor_of_string {cs : List Char} {n : Nat} (h : Recognise.string cs = some n) :
    ∃ content value, cs.take n = '"' :: (content ++ ['"']) ∧ StandsFor content value := by
  rcases string_eq_some.1 h with ⟨rest, m, rfl, hm, rfl⟩
  rcases exists_standsFor_of_closingQuote hm with ⟨content, value, htake, hstands⟩
  exact ⟨content, value, by rw [List.take_succ_cons, htake], hstands⟩

/-! ### Characters for a value -/

/-- A value without quotes and backslashes stands for itself. -/
theorem standsFor_of_plain {value : List Char} (hquote : '"' ∉ value) (hescape : '\\' ∉ value) :
    StandsFor value value := by
  induction value with
  | nil => exact .nil
  | cons c value ih =>
      rw [List.mem_cons, not_or] at hquote hescape
      exact .plain (Ne.symm hquote.1) (Ne.symm hescape.1) (ih hquote.2 hescape.2)

/-- Characters for a value: a backslash in front of every quote and every backslash. -/
def escape (value : List Char) : List Char :=
  value.flatMap fun c => if c = '"' ∨ c = '\\' then ['\\', c] else [c]

theorem standsFor_escape (value : List Char) : StandsFor (escape value) value := by
  induction value with
  | nil => exact .nil
  | cons c value ih =>
      by_cases hc : c = '"' ∨ c = '\\'
      · have hfeed : c ≠ '\n' := by
          rintro rfl
          exact absurd hc (by decide)
        rw [escape, List.flatMap_cons, if_pos hc]
        exact .escaped hfeed ih
      · rw [escape, List.flatMap_cons, if_neg hc]
        rw [not_or] at hc
        exact .plain hc.1 hc.2 ih

end PassageMarkup
