/-
Module: PassageMarkup.Proofs.Leading
Layer: Proofs
Purpose: The token at the start of a text. Every kind of token has a stable recogniser, so the ordered
  choice among the kinds is stable too: a clean cut behind the leading token leaves it as it is. Plain
  text fits any character, hence a text that is not empty always has a leading token; it is a run of
  blanks exactly if the first character is a blank.
Imports: Proofs.Recognisers, Token.Scan
Main exports: Kind.stable, leading?_eq_some_iff, exists_leading, leading?_cut, leading_whitespace_iff
-/
import PassageMarkup.Proofs.Recognisers
import PassageMarkup.Token.Scan

namespace PassageMarkup

open Text Recognise

/-! ### The kinds -/

theorem piece_digits : Piece (run isDigit) :=
  piece_run (by decide)

theorem wordPiece_digits : WordPiece (run isDigit) :=
  wordPiece_run (by decide) isWord_of_isDigit

theorem wordPiece_fraction : WordPiece fraction :=
  (piece_exactly (by decide) (by decide)).followedBy_word wordPiece_digits

theorem wordToken_milliseconds : WordToken (reserved ['m', 's']) :=
  wordToken_reserved (by decide)

theorem wordToken_seconds : WordToken (reserved ['s']) :=
  wordToken_reserved (by decide)

/-- A fraction starts with a point, so no unit of time stands in its place. -/
theorem reserved_eq_none_of_fraction {cs : List Char} {n : Nat} (h : fraction cs = some n)
    {c : Char} {word : List Char} (hc : c ≠ '.') : reserved (c :: word) cs = none := by
  obtain ⟨a, b, ha, _, _⟩ := followedBy_eq_some.1 h
  obtain ⟨⟨rest, rfl⟩, _⟩ := exactly_eq_some.1 ha
  rw [Option.eq_none_iff_forall_ne_some]
  intro m hm
  obtain ⟨⟨other, hother⟩, _⟩ := reserved_eq_some.1 hm
  simp only [List.cons_append, List.cons.injEq] at hother
  exact hc hother.1

/-- A duration is one of four plain sequences. The digits before the unit take a fraction if there is
one; reading them without it never helps, because a point is no unit. -/
theorem time_eq (cs : List Char) :
    time cs = firstOf
      [followedBy (run isDigit) (followedBy fraction (reserved ['m', 's'])),
       followedBy (run isDigit) (followedBy fraction (reserved ['s'])),
       followedBy (run isDigit) (reserved ['m', 's']),
       followedBy (run isDigit) (reserved ['s'])] cs := by
  have hnil : firstOf [] = fun _ : List Char => none := rfl
  simp only [time, digits, followedBy, firstOf_cons, hnil]
  cases run isDigit cs with
  | none => simp
  | some a =>
      cases hfraction : fraction (cs.drop a) with
      | none =>
          simp only [Option.none_or, Option.some_or, hfraction]
          cases reserved ['m', 's'] (cs.drop a) <;> cases reserved ['s'] (cs.drop a) <;> rfl
      | some b =>
          simp only [Option.some_or, List.drop_drop, hfraction,
            reserved_eq_none_of_fraction hfraction (show 'm' ≠ '.' by decide),
            reserved_eq_none_of_fraction hfraction (show 's' ≠ '.' by decide)]
          cases reserved ['m', 's'] (cs.drop (a + b)) <;> cases reserved ['s'] (cs.drop (a + b)) <;>
            simp [Nat.add_assoc]

theorem stable_time : Stable time := by
  rw [funext time_eq]
  have hfraction := wordPiece_fraction.toPiece
  apply stable_firstOf
  simp only [List.forall_mem_cons]
  refine ⟨?_, ?_, ?_, ?_, by simp⟩
  · exact (piece_digits.followedBy_wordToken
      (hfraction.followedBy_wordToken wordToken_milliseconds)).stable
  · exact (piece_digits.followedBy_wordToken
      (hfraction.followedBy_wordToken wordToken_seconds)).stable
  · exact (piece_digits.followedBy_wordToken wordToken_milliseconds).stable
  · exact (piece_digits.followedBy_wordToken wordToken_seconds).stable

theorem stable_number : Stable number := by
  apply stable_firstOf
  simp only [List.forall_mem_cons]
  refine ⟨?_, ?_, by simp⟩
  · exact (piece_digits.followedBy_word wordPiece_fraction).bounded.stable
  · exact wordPiece_digits.bounded.stable

theorem stable_exactly {spelling : List Char} (h : endsInSign spelling = true) :
    Stable (exactly spelling) :=
  (fixedToken_exactly h).stable

theorem stable_reserved {word : List Char} (h : endsInWord word = true) : Stable (reserved word) :=
  (wordToken_reserved h).stable

/-- A word, blanks, and a token that ends at a word boundary. -/
theorem wordToken_after {word : List Char} {rest : List Char → Option Nat}
    (hword : endsInWord word = true) (h : WordToken rest) :
    WordToken (followedBy (exactly word) (followedBy (run isBlank) rest)) := by
  apply (piece_of_endsInWord hword).followedBy_wordToken
  apply (piece_run _).followedBy_wordToken h
  decide

theorem stable_isNot : Stable
    (followedBy (exactly ['i', 's']) (followedBy (run isBlank) (reserved ['n', 'o', 't']))) := by
  apply WordToken.stable
  apply wordToken_after (by decide)
  exact wordToken_reserved (by decide)

theorem stable_doesNotContain : Stable
    (followedBy (exactly ['d', 'o', 'e', 's']) (followedBy (run isBlank)
      (followedBy (exactly ['n', 'o', 't']) (followedBy (run isBlank)
        (reserved ['c', 'o', 'n', 't', 'a', 'i', 'n']))))) := by
  apply WordToken.stable
  apply wordToken_after (by decide)
  apply wordToken_after (by decide)
  exact wordToken_reserved (by decide)

theorem stable_comparison : Stable comparison := by
  apply stable_firstOf
  simp (disch := decide) [stable_exactly, stable_reserved, stable_isNot, stable_doesNotContain]

/-- Every kind is read by a stable recogniser. -/
theorem Kind.stable (kind : Kind) : Stable kind.recognise := by
  cases kind with
  | whitespace => exact stable_blanks
  | linkOpen | linkClose | linkArrow | hookOpen | hookClose | closeParen | comma =>
      exact stable_exactly (by decide)
  | callHead => exact fixedToken_callHead.stable
  | keyword => exact stable_reserved (by decide)
  | «variable» => exact stable_variable
  | string => exact fixedToken_string.stable
  | time => exact stable_time
  | number => exact stable_number
  | comparison => exact stable_comparison
  | boolean | logical | binding | property =>
      apply stable_firstOf
      simp (disch := decide) [stable_reserved]
  | arithmetic =>
      apply stable_firstOf
      simp (disch := decide) [stable_exactly]
  | text => exact stable_text

/-! ### The leading token -/

/-- The leading token is of the first kind that fits. -/
theorem leading?_eq_some_iff {cs : List Char} {kind : Kind} {n : Nat} :
    leading? cs = some (kind, n) ↔
      ∃ before behind, Kind.all = before ++ kind :: behind ∧ kind.recognise cs = some n ∧
        ∀ other ∈ before, other.recognise cs = none := by
  -- no recogniser answers zero, so the test for a nonempty part changes nothing
  have hfilter : ∀ other : Kind, (other.recognise cs).filter (0 < ·) = other.recognise cs := by
    intro other
    cases hread : other.recognise cs with
    | none => rfl
    | some m => simp [other.stable.pos hread]
  simp only [leading?, hfilter, List.findSome?_eq_some_iff, Option.map_eq_some_iff, Prod.mk.injEq,
    Option.map_eq_none_iff]
  constructor
  · rintro ⟨before, other, behind, hall, ⟨m, hread, rfl, rfl⟩, hnone⟩
    exact ⟨before, behind, hall, hread, hnone⟩
  · rintro ⟨before, behind, hall, hread, hnone⟩
    exact ⟨before, kind, behind, hall, ⟨n, hread, rfl, rfl⟩, hnone⟩

theorem recognise_of_leading {cs : List Char} {kind : Kind} {n : Nat}
    (h : leading? cs = some (kind, n)) : kind.recognise cs = some n := by
  obtain ⟨_, _, _, hread, _⟩ := leading?_eq_some_iff.1 h
  exact hread

/-- Some kind fits a text that is not empty. -/
theorem exists_leading {cs : List Char} (h : cs ≠ []) : ∃ kind n, leading? cs = some (kind, n) := by
  have hsome : (leading? cs).isSome := by
    refine List.findSome?_isSome_iff.2 ⟨.text, Kind.mem_all _, ?_⟩
    cases cs with
    | nil => exact absurd rfl h
    | cons c cs =>
        have hread : Kind.text.recognise (c :: cs) =
            some (if endsWord c then 1 else 1 + runLength (fun d => !endsWord d) cs) := rfl
        simp [hread, Kind.text.stable.pos hread]
  obtain ⟨⟨kind, n⟩, hleading⟩ := Option.isSome_iff_exists.1 hsome
  exact ⟨kind, n, hleading⟩

/-- A clean cut behind the leading token leaves it as it is. -/
theorem leading?_cut {front back : List Char} {kind : Kind} {n : Nat}
    (hclean : CleanCut front back) (h : leading? (front ++ back) = some (kind, n))
    (hle : n ≤ front.length) : leading? front = some (kind, n) := by
  obtain ⟨before, behind, hall, hread, hnone⟩ := leading?_eq_some_iff.1 h
  refine leading?_eq_some_iff.2 ⟨before, behind, hall, kind.stable.keep hclean hread hle, ?_⟩
  intro other hmem
  cases hother : other.recognise front with
  | none => rfl
  | some m =>
      have hsome := other.stable.reflect hclean (by simp [hother])
      simp [hnone other hmem] at hsome

/-- The leading token is a run of blanks exactly if the first character is a blank. -/
theorem leading_whitespace_iff {c : Char} {cs : List Char} {kind : Kind} {n : Nat}
    (h : leading? (c :: cs) = some (kind, n)) : kind = .whitespace ↔ isBlank c = true := by
  constructor
  · rintro rfl
    obtain ⟨d, hd, hblank⟩ := head_of_run (recognise_of_leading h)
    rw [List.head?_cons, Option.some.injEq] at hd
    exact hd ▸ hblank
  · intro hblank
    obtain ⟨before, behind, hall, _, hnone⟩ := leading?_eq_some_iff.1 h
    cases before with
    | nil => exact (List.cons.inj hall).1.symm
    | cons first rest =>
        -- white space is tried first, and it fits
        have hfirst : Kind.whitespace = first := (List.cons.inj hall).1
        have hfits := hnone first List.mem_cons_self
        rw [← hfirst] at hfits
        simp [Kind.recognise, run, runLength, hblank] at hfits

end PassageMarkup
