/-
Module: PassageMarkup.Proofs.Gaps
Layer: Proofs
Purpose: Taking out the blanks behind a bracket. No token other than a string reads past a bracket, so
  what follows the bracket decides nothing in front of it. A quote is the exception, since it looks for
  its partner in all the text that follows; but blanks neither close nor escape anything. So the tokens in
  front of a bracket stay as they are when the blanks right behind the bracket are taken out.
Imports: Proofs.Alphabets, Proofs.Leading
Main exports: isBracketChar, Clear, Kind.clear, closingQuote_addGap, string_addGap, Kind.reach,
  leading?_removeGap
-/
import PassageMarkup.Proofs.Alphabets
import PassageMarkup.Proofs.Leading

namespace PassageMarkup

open Text Recognise

/-- Whether a character is a bracket. -/
def isBracketChar (c : Char) : Bool :=
  c == '[' || c == ']'

theorem isBracketChar_iff {c : Char} : isBracketChar c = true ↔ c = '[' ∨ c = ']' := by
  simp [isBracketChar]

theorem atBoundary_bracket {c : Char} (h : isBracketChar c = true) (rest : List Char) :
    atBoundary (c :: rest) = true := by
  have hword : isWord c = false := by
    rcases isBracketChar_iff.1 h with rfl | rfl <;> decide
  simp [atBoundary, hword]

/-! ### Recognisers that read no bracket -/

namespace Recognise

/-- A recogniser that never reads a bracket. -/
structure Clear (read : List Char → Option Nat) : Prop where
  chars : ∀ {cs n}, read cs = some n → ∀ c ∈ cs.take n, isBracketChar c = false

end Recognise

/-- Apart from brackets, strings and plain text no kind of token holds a bracket. -/
theorem Kind.clear {kind : Kind} (hbracket : kind.isBracket = false) (hstring : kind ≠ .string)
    (htext : kind ≠ .text) : Clear kind.recognise := by
  rcases Kind.alphabet_bracket hbracket hstring htext with ⟨hopen, hclose⟩
  constructor
  intro cs n hread c hmem
  have haccept := kind.within.chars hread c hmem
  rw [Bool.eq_false_iff]
  intro hc
  rcases isBracketChar_iff.1 hc with rfl | rfl
  · rw [hopen] at haccept
    cases haccept
  · rw [hclose] at haccept
    cases haccept

/-! ### Quotes -/

/-- Blanks put no end to a string. -/
theorem closingQuote_blanks {gap : List Char} (hgap : ∀ c ∈ gap, isBlank c = true) (back : List Char) :
    (closingQuote (gap ++ back)).isSome = (closingQuote back).isSome := by
  induction gap with
  | nil => rfl
  | cons c gap ih =>
      rcases List.forall_mem_cons.1 hgap with ⟨hblank, hrest⟩
      have hquote : c ≠ '"' := by
        rintro rfl
        revert hblank
        decide
      have hescape : c ≠ '\\' := by
        rintro rfl
        revert hblank
        decide
      rw [List.cons_append, closingQuote_other hquote hescape, Option.isSome_map, ih hrest]

/-- A string that is closed behind a place is still closed when blanks are put there, unless the place is
right behind a backslash. -/
theorem closingQuote_addGap {front gap back : List Char} (hgap : ∀ c ∈ gap, isBlank c = true)
    (hlast : front.getLast? ≠ some '\\') (h : (closingQuote (front ++ back)).isSome = true) :
    (closingQuote (front ++ (gap ++ back))).isSome = true := by
  have htail : ∀ {c : Char} {cs : List Char}, (c :: cs).getLast? ≠ some '\\' →
      cs.getLast? ≠ some '\\' := by
    intro c cs hne hlast
    rw [List.getLast?_cons, hlast] at hne
    exact hne rfl
  fun_induction closingQuote front with
  | case1 =>
      rw [List.nil_append] at h ⊢
      rwa [closingQuote_blanks hgap]
  | case2 tail => simp [closingQuote]
  | case3 => exact absurd rfl hlast
  | case4 cs => simp [closingQuote] at h
  | case5 c cs hc ih =>
      simp only [List.cons_append, closingQuote, hc, if_false, Option.isSome_map] at h ⊢
      exact ih (htail (htail hlast)) h
  | case6 c cs hquote hescape hescape' ih =>
      have hother := ne_escape hescape hescape'
      rw [List.cons_append, closingQuote_other hquote hother, Option.isSome_map] at h ⊢
      exact ih (htail hlast) h

theorem string_addGap {front gap back : List Char} (hgap : ∀ c ∈ gap, isBlank c = true)
    (hlast : front.getLast? ≠ some '\\') (hne : front ≠ [])
    (h : (string (front ++ back)).isSome = true) :
    (string (front ++ (gap ++ back))).isSome = true := by
  rcases Option.isSome_iff_exists.1 h with ⟨n, hn⟩
  rcases string_eq_some.1 hn with ⟨rest, m, hrest, hm, _⟩
  cases front with
  | nil => exact absurd rfl hne
  | cons c front =>
      rcases List.cons.inj hrest with ⟨rfl, rfl⟩
      have hinner : front.getLast? ≠ some '\\' := by
        intro hend
        rw [List.getLast?_cons, hend] at hlast
        exact hlast rfl
      have hclosed : (closingQuote (front ++ back)).isSome = true :=
        Option.isSome_iff_exists.2 ⟨m, hm⟩
      have hsome := closingQuote_addGap hgap hinner hclosed
      rcases Option.isSome_iff_exists.1 hsome with ⟨k, hk⟩
      exact Option.isSome_iff_exists.2 ⟨k + 1, string_eq_some.2 ⟨_, k, rfl, hk, rfl⟩⟩

/-! ### Leading tokens in front of a bracket -/

/-- Plain text does not go on with a character that ends words. -/
theorem text_le_of_endsWord {front back : List Char} {next : Char} {m : Nat}
    (hends : endsWord next = true) (hne : front ≠ [])
    (h : Recognise.text (front ++ next :: back) = some m) : m ≤ front.length := by
  cases front with
  | nil => exact absurd rfl hne
  | cons c front =>
      have hrun : runLength (fun d => !endsWord d) (front ++ next :: back) ≤ front.length := by
        unfold runLength
        rw [List.takeWhile_append, List.takeWhile_cons, hends]
        split
        · simp
        · exact runLength_le _ front
      simp only [List.cons_append, Recognise.text, Option.some.injEq] at h
      rw [List.length_cons]
      split at h <;> omega

/-- What reads past a bracket with text in front of it is a string, or a pair of brackets. -/
theorem Kind.reach {kind : Kind} {front back : List Char} {bracket : Char} {m : Nat}
    (hbracket : isBracketChar bracket = true) (hne : front ≠ [])
    (h : kind.recognise (front ++ bracket :: back) = some m) (hlt : front.length < m) :
    kind = .string ∨ front = [bracket] := by
  have hpos : 0 < front.length := List.length_pos_iff.2 hne
  -- a fixed spelling of at most two equal characters
  have hpair : ∀ c : Char, exactly [c, c] (front ++ bracket :: back) = some m → front = [bracket] := by
    intro c hread
    rcases exactly_eq_some.1 hread with ⟨⟨rest, hrest⟩, hlength⟩
    have hlength : m = 2 := hlength.symm
    rcases List.length_eq_one_iff.1 (by omega : front.length = 1) with ⟨d, rfl⟩
    simp only [List.cons_append, List.nil_append, List.cons.injEq] at hrest
    rw [← hrest.1, ← hrest.2.1]
  have hsingle : ∀ c : Char, exactly [c] (front ++ bracket :: back) ≠ some m := by
    intro c hread
    have hlength : m = 1 := (exactly_eq_some.1 hread).2.symm
    omega
  by_cases hclear : kind.isBracket = false ∧ kind ≠ .string ∧ kind ≠ .text
  · -- the bracket would be among what is read
    have hnot := (Kind.clear hclear.1 hclear.2.1 hclear.2.2).chars h bracket (mem_take_of_past hlt)
    rw [hbracket] at hnot
    cases hnot
  cases kind with
  | linkOpen => exact .inr (hpair '[' h)
  | linkClose => exact .inr (hpair ']' h)
  | hookOpen => exact absurd h (hsingle '[')
  | hookClose => exact absurd h (hsingle ']')
  | string => exact .inl rfl
  | text =>
      have hends : endsWord bracket = true := by
        rcases isBracketChar_iff.1 hbracket with rfl | rfl <;> decide
      exact absurd hlt (Nat.not_lt.2 (text_le_of_endsWord hends hne h))
  | _ => exact absurd ⟨rfl, by simp, by simp⟩ hclear

/-- Blanks right behind a bracket may be taken out without a change to a leading token in front of it,
provided that the token is no bracket itself. -/
theorem leading?_removeGap {front gap back : List Char} {bracket : Char} {kind : Kind} {n : Nat}
    (hbracket : isBracketChar bracket = true) (hgap : ∀ c ∈ gap, isBlank c = true)
    (hkind : kind.isBracket = false) (hle : n ≤ front.length)
    (h : leading? (front ++ bracket :: (gap ++ back)) = some (kind, n)) :
    leading? (front ++ bracket :: back) = some (kind, n) := by
  have hclean : ∀ rest, CleanCut front (bracket :: rest) := fun rest =>
    cleanCut_of_atBoundary (atBoundary_bracket hbracket rest)
  have hfront : leading? front = some (kind, n) := leading?_cut (hclean _) h hle
  have hpos : 0 < n := kind.stable.pos (recognise_of_leading hfront)
  have hne : front ≠ [] := List.length_pos_iff.1 (by omega)
  have hnotPair : front ≠ [bracket] := by
    rintro rfl
    rcases isBracketChar_iff.1 hbracket with rfl | rfl
    · have hopen : leading? ['['] = some (.hookOpen, 1) := by decide
      rw [hopen] at hfront
      cases hfront
      cases hkind
    · have hclose : leading? [']'] = some (.hookClose, 1) := by decide
      rw [hclose] at hfront
      cases hfront
      cases hkind
  rcases leading?_eq_some_iff.1 h with ⟨before, behind, hall, hread, hnone⟩
  have hown : kind.recognise front = some n := kind.stable.keep (hclean _) hread hle
  refine leading?_eq_some_iff.2 ⟨before, behind, hall, ?_, ?_⟩
  · rcases Option.isSome_iff_exists.1 (kind.stable.reflect (hclean back) (by rw [hown]; rfl))
      with ⟨m, hm⟩
    by_cases hreach : m ≤ front.length
    · rw [hm, ← kind.stable.keep (hclean back) hm hreach, hown]
    · rcases Kind.reach hbracket hne hm (by omega) with rfl | hpair
      · exact fixedToken_string.fixed hown
      · exact absurd hpair hnotPair
  · intro other hmem
    cases hother : other.recognise (front ++ bracket :: back) with
    | none => rfl
    | some m =>
        -- the kind would have fitted with the blanks in place
        have hfits : (other.recognise (front ++ bracket :: (gap ++ back))).isSome = true := by
          by_cases hreach : m ≤ front.length
          · have hread := other.stable.keep (hclean back) hother hreach
            exact other.stable.reflect (hclean _) (by rw [hread]; rfl)
          · rcases Kind.reach hbracket hne hother (by omega) with rfl | hpair
            · have hstring : (string ((front ++ [bracket]) ++ back)).isSome = true := by
                rw [List.append_assoc]
                exact Option.isSome_iff_exists.2 ⟨m, hother⟩
              have hlast : (front ++ [bracket]).getLast? ≠ some '\\' := by
                rw [List.getLast?_concat]
                rintro hescape
                rw [Option.some.inj hescape] at hbracket
                cases hbracket
              have hadded := string_addGap hgap hlast (by simp) hstring
              rwa [List.append_assoc] at hadded
            · exact absurd hpair hnotPair
        simp [hnone other hmem] at hfits

end PassageMarkup
