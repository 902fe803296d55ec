/-
Module: PassageMarkup.Proofs.Alphabets
Layer: Proofs
Purpose: Which characters a kind of token can hold. A recogniser is within a class of characters if it never
  reads one outside the class; the combinators keep this, so every kind has its alphabet. Brackets are in
  no alphabet but those of the brackets, and blanks in none but those of white space and of comparisons;
  strings and plain text apart, which have no alphabet of their own.
Imports: Proofs.Recognisers
Main exports: Within, Kind.alphabet, Kind.within, Kind.alphabet_of_past, Kind.alphabet_blank,
  Kind.alphabet_bracket
-/
import PassageMarkup.Proofs.Recognisers

namespace PassageMarkup

open Text Recognise

namespace Recognise

/-- A recogniser that reads no character outside a class. -/
structure Within (accept : Char → Bool) (read : List Char → Option Nat) : Prop where
  chars : ∀ {cs n}, read cs = some n → ∀ c ∈ cs.take n, accept c = true

section

variable {accept : Char → Bool}

theorem within_exactly {spelling : List Char} (h : spelling.all accept = true) :
    Within accept (exactly spelling) := by
  constructor
  intro cs n hread
  rcases exactly_eq_some.1 hread with ⟨hpre, rfl⟩
  rw [take_of_prefix_self hpre]
  exact List.all_eq_true.1 h

theorem within_reserved {word : List Char} (h : word.all accept = true) :
    Within accept (reserved word) := by
  constructor
  intro cs n hread
  rcases reserved_eq_some.1 hread with ⟨hpre, _, rfl⟩
  rw [take_of_prefix_self hpre]
  exact List.all_eq_true.1 h

theorem within_run {select : Char → Bool} (h : ∀ {c}, select c = true → accept c = true) :
    Within accept (run select) := by
  constructor
  intro cs n hread c hmem
  rcases run_eq_some.1 hread with ⟨rfl, _⟩
  rw [take_runLength] at hmem
  exact h (List.all_eq_true.1 List.all_takeWhile c hmem)

theorem Within.followedBy {first second : List Char → Option Nat} (hfirst : Within accept first)
    (hsecond : Within accept second) : Within accept (followedBy first second) := by
  constructor
  intro cs n hread c hmem
  rcases followedBy_eq_some.1 hread with ⟨a, b, ha, hb, rfl⟩
  rw [List.take_add] at hmem
  rcases List.mem_append.1 hmem with hmem | hmem
  · exact hfirst.chars ha c hmem
  · exact hsecond.chars hb c hmem

theorem Within.bounded {spelling : List Char → Option Nat} (h : Within accept spelling) :
    Within accept (bounded spelling) := by
  constructor
  intro cs n hread
  exact h.chars (bounded_eq_some.1 hread).1

theorem within_firstOf {choices : List (List Char → Option Nat)}
    (h : ∀ choice ∈ choices, Within accept choice) : Within accept (firstOf choices) := by
  constructor
  intro cs n hread
  rcases List.exists_of_findSome?_eq_some hread with ⟨choice, hmem, hchoice⟩
  exact (h choice hmem).chars hchoice

theorem within_nameAfter {mark : Char} {continues : Char → Bool} (hmark : accept mark = true)
    (hstart : ∀ {c}, isNameStart c = true → accept c = true)
    (hcontinues : ∀ {c}, continues c = true → accept c = true) :
    Within accept (nameAfter mark continues) := by
  constructor
  intro cs n hread c hmem
  rcases nameAfter_eq_some.1 hread with ⟨start, rest, rfl, hname, rfl⟩
  rw [take_name] at hmem
  rcases List.mem_cons.1 hmem with rfl | hmem
  · exact hmark
  rcases List.mem_cons.1 hmem with rfl | hmem
  · exact hstart hname
  · exact hcontinues (List.all_eq_true.1 List.all_takeWhile c hmem)

/-- A word, blanks, and more. -/
theorem within_afterWord {word : List Char} {rest : List Char → Option Nat}
    (hword : word.all accept = true) (hblank : ∀ {c}, isBlank c = true → accept c = true)
    (h : Within accept rest) : Within accept
      (Recognise.followedBy (exactly word) (Recognise.followedBy (run isBlank) rest)) :=
  (within_exactly hword).followedBy ((within_run hblank).followedBy h)

end

end Recognise

/-! ### The alphabets -/

/-- The characters that a token of a kind can hold. -/
def Kind.alphabet : Kind → Char → Bool
  | .whitespace => isBlank
  | .linkOpen | .hookOpen => (· == '[')
  | .linkClose | .hookClose => (· == ']')
  | .linkArrow => fun c => c == '-' || c == '>'
  | .callHead => fun c => isNameRest c || c == '-' || c == '(' || c == ':'
  | .closeParen => (· == ')')
  | .variable => fun c => isNameRest c || c == '$'
  | .time | .number => fun c => isWord c || c == '.'
  | .comparison => fun c => isWord c || isBlank c || c == '<' || c == '>' || c == '='
  | .arithmetic => fun c => c == '-' || c == '+' || c == '*' || c == '/'
  | .property => fun c => isWord c || c == '\x27'
  | .comma => (· == ',')
  | .keyword | .boolean | .logical | .binding => isWord
  | .string | .text => fun _ => true

section Numbers

variable {c : Char}

theorem alphabet_number_of_isDigit (h : isDigit c = true) : (isWord c || c == '.') = true := by
  rw [isWord_of_isDigit h, Bool.true_or]

theorem within_digits : Within (fun c => isWord c || c == '.') (run isDigit) :=
  within_run alphabet_number_of_isDigit

theorem within_fraction : Within (fun c => isWord c || c == '.') fraction :=
  (within_exactly (by decide)).followedBy within_digits

end Numbers

/-- Every kind is read within its alphabet. -/
theorem Kind.within (kind : Kind) : Within kind.alphabet kind.recognise := by
  cases kind with
  | whitespace => exact within_run id
  | linkOpen | linkClose | linkArrow | hookOpen | hookClose | closeParen | comma =>
      exact within_exactly (by decide)
  | callHead =>
      refine (within_nameAfter rfl ?_ ?_).followedBy (within_exactly (by decide))
      · intro c hstart
        simp [alphabet, isNameRest_of_isNameStart hstart]
      · intro c hcontinues
        show (isNameRest c || c == '-' || c == '(' || c == ':') = true
        rw [hcontinues, Bool.true_or, Bool.true_or]
  | keyword => exact within_reserved (by decide)
  | «variable» =>
      refine within_nameAfter rfl ?_ ?_
      · intro c hstart
        simp [alphabet, isNameRest_of_isNameStart hstart]
      · intro c hcontinues
        simp [alphabet, hcontinues]
  | string | text => exact ⟨fun _ _ _ => rfl⟩
  | time =>
      apply Within.followedBy
      · apply within_firstOf
        simp only [List.forall_mem_cons]
        exact ⟨within_digits.followedBy within_fraction, within_digits, by simp⟩
      · apply within_firstOf
        simp (disch := decide) [within_reserved]
  | number =>
      apply within_firstOf
      simp only [List.forall_mem_cons]
      exact ⟨(within_digits.followedBy within_fraction).bounded, within_digits.bounded, by simp⟩
  | comparison =>
      have hblank : ∀ {c}, isBlank c = true → Kind.comparison.alphabet c = true := by
        intro c hc
        simp [alphabet, hc]
      have hreserved : ∀ word, word.all Kind.comparison.alphabet = true →
          Within Kind.comparison.alphabet (reserved word) := fun _ => within_reserved
      have hisNot := within_afterWord (show ['i', 's'].all _ = true by decide) hblank
        (hreserved ['n', 'o', 't'] (by decide))
      have hdoesNot := within_afterWord (show ['d', 'o', 'e', 's'].all _ = true by decide) hblank
        (within_afterWord (show ['n', 'o', 't'].all _ = true by decide) hblank
          (hreserved ['c', 'o', 'n', 't', 'a', 'i', 'n'] (by decide)))
      apply within_firstOf
      simp (disch := decide) [within_exactly, within_reserved, hisNot, hdoesNot]
  | boolean | logical | binding | property =>
      apply within_firstOf
      simp (disch := decide) [within_reserved]
  | arithmetic =>
      apply within_firstOf
      simp (disch := decide) [within_exactly]

theorem mem_take_of_past {front back : List Char} {c : Char} {n : Nat} (h : front.length < n) :
    c ∈ (front ++ c :: back).take n := by
  rw [List.take_append, List.mem_append]
  right
  rw [List.take_cons (by omega)]
  exact List.mem_cons_self

/-- A token that goes on past a character holds it. -/
theorem Kind.alphabet_of_past {kind : Kind} {front back : List Char} {c : Char} {n : Nat}
    (h : kind.recognise (front ++ c :: back) = some n) (hpast : front.length < n) :
    kind.alphabet c = true :=
  kind.within.chars h c (mem_take_of_past hpast)

/-- Apart from brackets, strings and plain text no kind of token holds a bracket. -/
theorem Kind.alphabet_bracket {kind : Kind} (hbracket : kind.isBracket = false)
    (hstring : kind ≠ .string) (htext : kind ≠ .text) :
    kind.alphabet '[' = false ∧ kind.alphabet ']' = false := by
  cases kind with
  | linkOpen | linkClose | hookOpen | hookClose => cases hbracket
  | string => exact absurd rfl hstring
  | text => exact absurd rfl htext
  | _ => decide

/-- Apart from white space, comparisons, strings and plain text no kind of token holds a blank. -/
theorem Kind.alphabet_blank {kind : Kind} (hspace : kind ≠ .whitespace)
    (hcomparison : kind ≠ .comparison) (hstring : kind ≠ .string) (htext : kind ≠ .text) {c : Char}
    (hblank : isBlank c = true) : kind.alphabet c = false := by
  have hword : isWord c = false := not_isWord_of_isBlank hblank
  have hname : isNameRest c = false := by
    rw [Bool.eq_false_iff]
    intro hrest
    rw [isWord_of_isNameRest hrest] at hword
    cases hword
  have hsign : ∀ d, isBlank d = false → (c == d) = false := by
    intro d hd
    rw [beq_eq_false_iff_ne]
    rintro rfl
    rw [hblank] at hd
    cases hd
  cases kind with
  | whitespace => exact absurd rfl hspace
  | comparison => exact absurd rfl hcomparison
  | string => exact absurd rfl hstring
  | text => exact absurd rfl htext
  | _ => simp (disch := decide) [alphabet, hword, hname, hsign]

end PassageMarkup
