/-
Module: PassageMarkup.Proofs.LabelLexing
Layer: Proofs
Purpose: The tokens of a label. In a label every word is followed by a space, a comma or a closing
  parenthesis, past which no token but a comparison of several words goes on; so a word that is a token by
  itself is one in the label. The words of arguments are such tokens, hence the label of a call lexes into
  its head, the words of its arguments and a closing parenthesis.
Imports: Proofs.Alphabets, Proofs.LabelWords, Proofs.Spacing
Main exports: breaks, leading?_before, leading?_word_before, opens, leading?_inFull, Spells,
  Literal.IsSpelled, Literal.IsLegible, Expression.spells, spells_callLabel
-/
import PassageMarkup.Proofs.Alphabets
import PassageMarkup.Proofs.LabelWords
import PassageMarkup.Proofs.Spacing

namespace PassageMarkup

open Text Recognise Number

/-! ### Words in front of a break -/

/-- No kind that fits comes before the kind of the leading token. -/
theorem priority_le_of_leading {cs : List Char} {kind other : Kind} {n : Nat}
    (h : leading? cs = some (kind, n)) (hother : (other.recognise cs).isSome) :
    kind.priority ≤ other.priority := by
  rcases leading?_eq_some_iff.1 h with ⟨before, behind, hall, _, hnone⟩
  have hnot : other ∉ before := by
    intro hmem
    rw [hnone other hmem] at hother
    cases hother
  have hkind : kind.priority ≤ before.length := by
    rw [Kind.priority, hall, List.idxOf_append]
    split
    · exact Nat.le_of_lt (List.idxOf_lt_length_of_mem ‹_›)
    · simp
  have hlater : before.length ≤ other.priority := by
    rw [Kind.priority, hall, List.idxOf_append, if_neg hnot]
    omega
  exact Nat.le_trans hkind hlater

/-- The first character of a token is in the alphabet of its kind. -/
theorem alphabet_of_recognise {c : Char} {cs : List Char} {kind : Kind} {n : Nat}
    (h : kind.recognise (c :: cs) = some n) : kind.alphabet c = true := by
  obtain ⟨k, rfl⟩ : ∃ k, n = k + 1 := Nat.exists_eq_add_one.2 (kind.stable.pos h)
  exact kind.within.chars h c (by simp)

/-- Whether a text goes on with a space, a comma or a closing parenthesis. -/
def breaks (cs : List Char) : Bool :=
  cs.head?.any fun c => c == ' ' || c == ',' || c == ')'

theorem exists_cons_of_breaks {cs : List Char} (h : breaks cs = true) :
    ∃ c rest, cs = c :: rest ∧ (c = ' ' ∨ c = ',' ∨ c = ')') := by
  cases cs with
  | nil => cases h
  | cons c rest => exact ⟨c, rest, rfl, by simpa [breaks, or_assoc] using h⟩

theorem atBoundary_of_breaks {cs : List Char} (h : breaks cs = true) : atBoundary cs = true := by
  rcases exists_cons_of_breaks h with ⟨c, rest, rfl, rfl | rfl | rfl⟩ <;> rfl

/-- A kind that fits a word still fits when a break follows. -/
theorem recognise_before {word rest : List Char} {kind : Kind} {n : Nat}
    (h : leading? word = some (kind, n)) (hbreaks : breaks rest = true) :
    (kind.recognise (word ++ rest)).isSome := by
  apply kind.stable.reflect (cleanCut_of_atBoundary (atBoundary_of_breaks hbreaks))
  rw [recognise_of_leading h]
  rfl

/-- Few kinds of token go on past a break, or are one. -/
theorem kind_of_past_break {word rest : List Char} (hbreaks : breaks rest = true) {kind : Kind} {n : Nat}
    (h : kind.recognise (word ++ rest) = some n) (hpast : word.length < n) :
    kind ∈ [.whitespace, .comparison, .string, .text, .comma, .closeParen] := by
  rcases exists_cons_of_breaks hbreaks with ⟨b, more, rfl, hb⟩
  have hholds : kind.alphabet b = true := Kind.alphabet_of_past h hpast
  cases kind with
  | whitespace | comparison | string | text | comma | closeParen => decide
  | _ => rcases hb with rfl | rfl | rfl <;> exact absurd hholds (by decide)

/-- A token that starts with a quote is a string or plain text. -/
theorem kind_of_quote {cs : List Char} {kind : Kind} {n : Nat}
    (h : leading? ('"' :: cs) = some (kind, n)) : kind = .string ∨ kind = .text := by
  have hquote := alphabet_of_recognise (recognise_of_leading h)
  cases kind with
  | string => exact .inl rfl
  | text => exact .inr rfl
  | _ => exact absurd hquote (by decide)

/-- A word that is a token by itself is one in front of a break, unless it goes on as a comparison. -/
theorem leading?_before (word : List Char) {rest : List Char} {kind : Kind}
    (h : leading? word = some (kind, word.length)) (hspace : kind ≠ .whitespace) (htext : kind ≠ .text)
    (hbreaks : breaks rest = true)
    (hcomparison : ∀ {n}, leading? (word ++ rest) = some (.comparison, n) → n ≤ word.length) :
    leading? (word ++ rest) = some (kind, word.length) := by
  have hclean : CleanCut word rest := cleanCut_of_atBoundary (atBoundary_of_breaks hbreaks)
  have hread := recognise_of_leading h
  have hfits := recognise_before h hbreaks
  obtain ⟨c, others, rfl⟩ := List.exists_cons_of_ne_nil (List.length_pos_iff.1 (kind.stable.pos hread))
  rcases exists_leading (show c :: others ++ rest ≠ [] by simp) with ⟨found, n, hfound⟩
  by_cases hle : n ≤ (c :: others).length
  · have hcut := leading?_cut hclean hfound hle
    rw [h] at hcut
    rw [hfound, ← hcut]
  -- No kind that could go on past the break does.
  exfalso
  have hpast := kind_of_past_break hbreaks (recognise_of_leading hfound) (Nat.lt_of_not_le hle)
  simp only [List.mem_cons, List.not_mem_nil, or_false] at hpast
  rcases hpast with rfl | rfl | rfl | rfl | hsign
  · exact hspace ((leading_whitespace_iff h).2 ((leading_whitespace_iff hfound).1 rfl))
  · exact hle (hcomparison hfound)
  · rcases string_eq_some.1 (recognise_of_leading hfound) with ⟨_, _, hcs, _⟩
    obtain rfl : c = '"' := (List.cons.inj hcs).1
    rcases kind_of_quote h with rfl | rfl
    · have hstring : Recognise.string ('"' :: others) = some ('"' :: others).length := hread
      have hsame := (recognise_of_leading hfound).symm.trans (fixedToken_string.fixed hstring)
      exact hle (Nat.le_of_eq (Option.some.inj hsame))
    · exact htext rfl
  · have hpriority := priority_le_of_leading hfound hfits
    cases kind with
    | text => exact htext rfl
    | _ => exact absurd hpriority (by decide)
  · have hone : n = 1 := by
      rcases hsign with rfl | rfl <;>
        exact (exactly_eq_some.1 (recognise_of_leading hfound)).2.symm
    simp [hone] at hle

/-- The kinds that are tried before comparisons are not taken for one. -/
theorem leading?_word_before (word : List Char) {rest : List Char} {kind : Kind}
    (h : leading? word = some (kind, word.length)) (hspace : kind ≠ .whitespace)
    (hpriority : kind.priority < Kind.comparison.priority) (hbreaks : breaks rest = true) :
    leading? (word ++ rest) = some (kind, word.length) := by
  refine leading?_before word h hspace ?_ hbreaks ?_
  · rintro rfl
    exact absurd hpriority (by decide)
  · intro n hfound
    exact absurd (priority_le_of_leading hfound (recognise_before h hbreaks)) (by omega)

/-- A sign that comparisons do not use is not taken for one. -/
theorem leading?_sign_before {c : Char} {rest : List Char} {kind : Kind}
    (h : leading? [c] = some (kind, 1)) (hspace : kind ≠ .whitespace) (htext : kind ≠ .text)
    (hsign : Kind.comparison.alphabet c = false) (hbreaks : breaks rest = true) :
    leading? (c :: rest) = some (kind, 1) := by
  refine leading?_before [c] h hspace htext hbreaks ?_
  intro n hfound
  have hholds := alphabet_of_recognise (recognise_of_leading hfound)
  rw [hsign] at hholds
  cases hholds

/-! ### Operators -/

/-- Whether a text starts with a character that is no blank and continues no comparison. -/
def opens (cs : List Char) : Bool :=
  cs.head?.any fun c => !isBlank c && c != 'n'

theorem opens_append {cs : List Char} (h : opens cs = true) (rest : List Char) :
    opens (cs ++ rest) = true := by
  cases cs with
  | nil => cases h
  | cons c cs => exact h

theorem exists_cons_of_opens {cs : List Char} (h : opens cs = true) :
    ∃ c rest, cs = c :: rest ∧ isBlank c = false ∧ c ≠ 'n' := by
  cases cs with
  | nil => cases h
  | cons c rest => exact ⟨c, rest, rfl, by simpa [opens] using h⟩

theorem leading?_arithmetic (operator : ArithmeticOperator) {rest : List Char}
    (hbreaks : breaks rest = true) : leading? (operator.symbol.toList ++ rest) =
      some (.arithmetic, operator.symbol.toList.length) := by
  cases operator <;> exact leading?_sign_before (by decide) (by decide) (by decide) (by decide) hbreaks

/-- The word `is` is a comparison of its own unless `not` follows. -/
theorem comparison_is {rest : List Char} (h : opens rest = true) :
    comparison ('i' :: 's' :: ' ' :: rest) = some 2 := by
  rcases exists_cons_of_opens h with ⟨c, more, rfl, hblank, hletter⟩
  have hrun : run isBlank (' ' :: c :: more) = some 1 := by
    simp [run, runLength, hblank, show isBlank ' ' = true by decide]
  have hnot : reserved ['n', 'o', 't'] (c :: more) = none := by
    simp [reserved, Ne.symm hletter]
  have hlonger : followedBy (exactly ['i', 's']) (followedBy (run isBlank) (reserved ['n', 'o', 't']))
      ('i' :: 's' :: ' ' :: c :: more) = none := by
    simp [followedBy, exactly, hrun, hnot]
  rw [comparison, firstOf_cons, firstOf_cons, firstOf_cons, firstOf_cons, firstOf_cons, hlonger]
  rfl

theorem leading?_comparison (operator : ComparisonOperator) {rest : List Char}
    (hopens : opens rest = true) : leading? (operator.symbol.toList ++ ' ' :: rest) =
      some (.comparison, operator.symbol.toList.length) := by
  have hword : leading? operator.symbol.toList =
      some (.comparison, operator.symbol.toList.length) := by
    cases operator <;> decide
  refine leading?_before _ hword (by decide) (by decide) rfl ?_
  intro n hfound
  have hread : comparison (operator.symbol.toList ++ ' ' :: rest) =
      some operator.symbol.toList.length := by
    cases operator with
    | is => exact comparison_is hopens
    | _ => rfl
  have hsame := (recognise_of_leading hfound).symm.trans hread
  exact Nat.le_of_eq (Option.some.inj hsame)

theorem leading?_keyword (keyword : Keyword) {rest : List Char} (hbreaks : breaks rest = true) :
    leading? (keyword.symbol.toList ++ rest) = some (keyword.kind, keyword.symbol.toList.length) := by
  cases keyword <;> exact leading?_word_before _ (by decide) (by decide) (by decide) hbreaks

/-! ### Literals -/

/-- The leading token is of a kind that fits if it can be of no other. -/
theorem leading?_of_recognise {cs : List Char} {kind : Kind} {n : Nat}
    (hread : kind.recognise cs = some n)
    (honly : ∀ {found m}, leading? cs = some (found, m) → found.priority ≤ kind.priority → found = kind) :
    leading? cs = some (kind, n) := by
  have hne : cs ≠ [] := by
    rintro rfl
    have hpos := kind.stable.pos hread
    have hle := kind.stable.le_length hread
    rw [List.length_nil] at hle
    omega
  rcases exists_leading hne with ⟨found, m, hfound⟩
  obtain rfl := honly hfound (priority_le_of_leading hfound (by rw [hread]; rfl))
  have hsame := (recognise_of_leading hfound).symm.trans hread
  rw [hfound, Option.some.inj hsame]

/-- The characters of a string are one when they are quoted, whatever follows. -/
theorem leading?_string {content value : List Char} (h : StandsFor content value) (rest : List Char) :
    leading? ('"' :: (content ++ '"' :: rest)) = some (.string, content.length + 2) := by
  apply leading?_of_recognise
  · simp [Kind.recognise, Recognise.string, h.closingQuote rest]
  · intro found m hfound hpriority
    rcases kind_of_quote hfound with rfl | rfl
    · rfl
    · exact absurd hpriority (by decide)

theorem isDigit_of_isAsciiDigit {c : Char} (h : isAsciiDigit c = true) : isDigit c = true :=
  isDigit_of_ascii (by simpa [isAsciiDigit] using h)

/-- A digit starts a duration or a number, and nothing that is tried before these. -/
theorem kind_of_digit {c : Char} {cs : List Char} {kind : Kind} {n : Nat} (hc : isAsciiDigit c = true)
    (h : leading? (c :: cs) = some (kind, n)) (hpriority : kind.priority ≤ Kind.number.priority) :
    kind = .time ∨ kind = .number := by
  have hread := recognise_of_leading h
  have hne : ∀ {d}, c = d → isAsciiDigit d = false → False := by
    rintro d rfl hd
    rw [hc] at hd
    cases hd
  have hfirst : ∀ {d ds}, (d :: ds) <+: (c :: cs) → isAsciiDigit d = false → False := by
    intro d ds hpre
    exact hne (List.cons_prefix_cons.1 hpre).1.symm
  cases kind with
  | time => exact .inl rfl
  | number => exact .inr rfl
  | whitespace =>
      have hblank := (leading_whitespace_iff h).1 rfl
      rw [not_isBlank_of_isWord (isWord_of_isDigit (isDigit_of_isAsciiDigit hc))] at hblank
      cases hblank
  | linkOpen | linkClose | linkArrow | hookOpen | hookClose | closeParen =>
      exact (hfirst (exactly_eq_some.1 hread).1 (by decide)).elim
  | callHead =>
      rcases followedBy_eq_some.1 hread with ⟨_, _, hname, _, _⟩
      rcases nameAfter_eq_some.1 hname with ⟨_, _, hcs, _, _⟩
      exact (hne (List.cons.inj hcs).1 (by decide)).elim
  | keyword => exact (hfirst (reserved_eq_some.1 hread).1 (by decide)).elim
  | «variable» =>
      rcases nameAfter_eq_some.1 hread with ⟨_, _, hcs, _, _⟩
      exact (hne (List.cons.inj hcs).1 (by decide)).elim
  | string =>
      rcases string_eq_some.1 hread with ⟨_, _, hcs, _⟩
      exact (hne (List.cons.inj hcs).1 (by decide)).elim
  | _ => exact absurd hpriority (by decide)

/-- A duration has a letter for its unit. -/
theorem unit_mem_of_time {cs : List Char} {n : Nat} (h : time cs = some n) : 'm' ∈ cs ∨ 's' ∈ cs := by
  rcases followedBy_eq_some.1 h with ⟨a, b, _, hunit, _⟩
  rcases List.exists_of_findSome?_eq_some hunit with ⟨choice, hmem, hchoice⟩
  simp only [List.mem_cons, List.not_mem_nil, or_false] at hmem
  rcases hmem with rfl | rfl
  · exact .inl (List.mem_of_mem_drop ((reserved_eq_some.1 hchoice).1.subset (by simp)))
  · exact .inr (List.mem_of_mem_drop ((reserved_eq_some.1 hchoice).1.subset (by simp)))

theorem run_digits {digits : List Char} (rest : List Char) (hne : digits ≠ [])
    (h : ∀ c ∈ digits, isAsciiDigit c = true) (hrest : rest.head?.any isDigit = false) :
    run isDigit (digits ++ rest) = some digits.length := by
  rw [run_eq_some, runLength_eq_length_iff, List.all_eq_true]
  exact ⟨⟨fun c hc => isDigit_of_isAsciiDigit (h c hc), hrest⟩, List.length_pos_iff.2 hne⟩

/-- A numeral in full is a number. -/
theorem number_inFull {whole fraction : List Char} (h : Digits whole fraction) :
    Recognise.number (inFull whole fraction) = some (inFull whole fraction).length := by
  cases fraction with
  | nil =>
      have hrun := run_digits [] h.nonempty h.whole rfl
      rw [List.append_nil] at hrun
      simp [Recognise.number, firstOf_cons, bounded, followedBy, inFull, hrun, Recognise.fraction, exactly,
        atBoundary]
  | cons c cs =>
      have hwhole := run_digits ('.' :: c :: cs) h.nonempty h.whole rfl
      have hdigits := run_digits [] (List.cons_ne_nil c cs) h.fraction rfl
      rw [List.append_nil] at hdigits
      have hfraction : Recognise.fraction ('.' :: c :: cs) = some ('.' :: c :: cs).length := by
        rw [Recognise.fraction, followedBy_eq_some]
        exact ⟨1, _, rfl, hdigits, by simp [Nat.add_comm]⟩
      have hlong : followedBy (run isDigit) Recognise.fraction (whole ++ '.' :: c :: cs) =
          some (whole ++ '.' :: c :: cs).length := by
        rw [followedBy_eq_some]
        exact ⟨_, _, hwhole, by rwa [List.drop_left], List.length_append.symm⟩
      have hbounded := bounded_eq_some.2 ⟨hlong, by rw [List.drop_length]; rfl⟩
      rw [inFull, Recognise.number, firstOf_cons, hbounded, Option.some_or]

theorem mem_inFull {whole fraction : List Char} (h : Digits whole fraction) {c : Char}
    (hmem : c ∈ inFull whole fraction) : isAsciiDigit c = true ∨ c = '.' := by
  revert c
  apply forall_mem_inFull
  · exact fun c hc => .inl (h.whole c hc)
  · exact .inr rfl
  · exact fun c hc => .inl (h.fraction c hc)

theorem leading?_inFull {whole fraction : List Char} (h : Digits whole fraction) :
    leading? (inFull whole fraction) = some (.number, (inFull whole fraction).length) := by
  have hread : Kind.number.recognise (inFull whole fraction) = some (inFull whole fraction).length :=
    number_inFull h
  apply leading?_of_recognise hread
  intro found m hfound hpriority
  rcases exists_digit_of_inFull h with ⟨c, cs, hcs, hc⟩
  have hkind := kind_of_digit hc (hcs ▸ hfound) hpriority
  rcases hkind with rfl | rfl
  · -- The characters of a numeral spell no unit of time.
    rcases unit_mem_of_time (recognise_of_leading hfound) with hmem | hmem
    · rcases mem_inFull h hmem with hdigit | hpoint <;> contradiction
    · rcases mem_inFull h hmem with hdigit | hpoint <;> contradiction
  · rfl

/-- A minus in front of a digit is a sign. -/
theorem leading?_minus {c : Char} (hc : isAsciiDigit c = true) (cs : List Char) :
    leading? ('-' :: c :: cs) = some (.arithmetic, 1) := by
  apply leading?_of_recognise rfl
  intro found m hfound hpriority
  have hread := recognise_of_leading hfound
  have hholds := alphabet_of_recognise hread
  cases found with
  | arithmetic => rfl
  | linkArrow =>
      have harrow := (List.cons_prefix_cons.1 (exactly_eq_some.1 hread).1).2
      obtain rfl := (List.cons_prefix_cons.1 harrow).1
      cases hc
  | callHead => cases hread
  | string => cases hread
  | text => exact absurd hpriority (by decide)
  | _ => exact absurd hholds (by decide)

/-! ### Texts that spell words -/

/-- A text that lexes into these words, wherever it stands. -/
def Spells (cs : List Char) (words : List Token) : Prop :=
  ∀ offset, ∃ tokens, Lexes offset cs tokens ∧ tokens.map Token.bare = words

theorem spells_nil : Spells [] [] :=
  fun _ => ⟨[], .nil, rfl⟩

section

variable {rest : List Char} {words : List Token}

/-- A word in front of a text. -/
theorem Spells.word (kind : Kind) (text : List Char) (hkind : kind ≠ .whitespace)
    (hleading : leading? (text ++ rest) = some (kind, text.length)) (h : Spells rest words) :
    Spells (text ++ rest) (.word kind (String.ofList text) :: words) := by
  intro offset
  rcases h (offset + byteLength text) with ⟨tokens, hlexes, htokens⟩
  exact ⟨_, .token hleading hkind hlexes, by rw [List.map_cons, htokens]; rfl⟩

/-- A space in front of a text. -/
theorem Spells.space (hopens : opens rest = true) (h : Spells rest words) :
    Spells (' ' :: rest) words := by
  intro offset
  rcases exists_cons_of_opens hopens with ⟨c, more, rfl, hblank, _⟩
  have hleading : leading? ([' '] ++ c :: more) = some (.whitespace, 1) := by
    refine leading?_eq_some_iff.2 ⟨[], _, rfl, ?_, by simp⟩
    simp [Kind.recognise, run, runLength, hblank, show isBlank ' ' = true by decide]
  rcases h (offset + byteLength [' ']) with ⟨tokens, hlexes, htokens⟩
  exact ⟨tokens, .blank hleading hlexes, htokens⟩

/-- An operator or a keyword, with a space on each side of it. -/
theorem Spells.joined {symbol : String} {kind : Kind} (hkind : kind ≠ .whitespace)
    (hsymbol : opens symbol.toList = true)
    (hleading : leading? (symbol.toList ++ ' ' :: rest) = some (kind, symbol.toList.length))
    (hopens : opens rest = true) (h : Spells rest words) :
    Spells (' ' :: (symbol.toList ++ ' ' :: rest)) (.word kind symbol :: words) := by
  have hword := Spells.word _ _ hkind hleading (h.space hopens)
  rw [String.ofList_toList] at hword
  exact hword.space (opens_append hsymbol _)

/-- A literal that keeps its spelling from a passage, where it is a token by itself. -/
def Literal.IsSpelled (literal : Literal) : Prop :=
  match literal with
  | .time _ | .variable _ =>
      leading? literal.label.toList = some (literal.kind, literal.label.toList.length)
  | .string _ | .number _ | .boolean _ => True

/-- The label of a number that is not negative is a numeral in full. -/
theorem exists_inFull_label (magnitude : Magnitude) : ∃ whole fraction, Digits whole fraction ∧
    (Literal.number (.finite false magnitude)).label.toList = inFull whole fraction := by
  rcases magnitude.exists_inFull with ⟨whole, fraction, hdigits, hchars, _⟩
  exact ⟨whole, fraction, hdigits, by simp [Literal.label, Binary64.numeral, hchars]⟩

theorem opens_of_digit {c : Char} {cs : List Char} (hhead : cs.head? = some c)
    (hdigit : isDigit c = true) : opens cs = true := by
  have hblank : isBlank c = false := not_isBlank_of_isWord (isWord_of_isDigit hdigit)
  have hletter : c ≠ 'n' := by
    rintro rfl
    cases hdigit
  simp [opens, hhead, hblank, hletter]

/-- A duration starts with a digit. -/
theorem opens_of_time {cs : List Char} {n : Nat} (h : time cs = some n) : opens cs = true := by
  rcases followedBy_eq_some.1 h with ⟨a, _, hdigits, _, _⟩
  obtain ⟨b, hrun⟩ : ∃ b, run isDigit cs = some b := by
    rcases List.exists_of_findSome?_eq_some hdigits with ⟨choice, hmem, hchoice⟩
    simp only [List.mem_cons, List.not_mem_nil, or_false] at hmem
    rcases hmem with rfl | rfl
    · rcases followedBy_eq_some.1 hchoice with ⟨b, _, hrun, _⟩
      exact ⟨b, hrun⟩
    · exact ⟨a, hchoice⟩
  rcases head_of_run hrun with ⟨c, hhead, hdigit⟩
  exact opens_of_digit hhead hdigit

theorem Literal.opens_label {literal : Literal} (hplain : literal.IsPlain)
    (hspelled : literal.IsSpelled) : opens literal.label.toList = true := by
  cases literal with
  | string value =>
      rw [toList_label_string]
      rfl
  | number value =>
      cases value with
      | nan | infinite => cases hplain
      | finite negative magnitude =>
          cases negative with
          | true =>
              rw [toList_label_negative]
              rfl
          | false =>
              rcases exists_inFull_label magnitude with ⟨whole, fraction, hdigits, hlabel⟩
              rcases exists_digit_of_inFull hdigits with ⟨c, cs, hcs, hc⟩
              rw [hlabel, hcs]
              exact opens_of_digit rfl (isDigit_of_isAsciiDigit hc)
  | boolean value => cases value <;> rfl
  | time value => exact opens_of_time (recognise_of_leading hspelled)
  | «variable» name =>
      rw [toList_label_variable]
      rfl

/-- The label of a literal in front of a break spells its words. -/
theorem Literal.spells {literal : Literal} (hplain : literal.IsPlain) (hspelled : literal.IsSpelled)
    (hbreaks : breaks rest = true) (h : Spells rest words) :
    Spells (literal.label.toList ++ rest) (literal.words ++ words) := by
  -- Every literal but a negative number is one word.
  have hsingle : ∀ literal : Literal,
      leading? literal.label.toList = some (literal.kind, literal.label.toList.length) →
      Spells (literal.label.toList ++ rest) (.word literal.kind literal.label :: words) := by
    intro literal hleading
    have hkind : literal.kind ≠ .whitespace := by cases literal <;> simp [kind]
    have hpriority : literal.kind.priority < Kind.comparison.priority := by
      cases literal <;> simp only [kind] <;> decide
    have hword := Spells.word _ _ hkind (leading?_word_before _ hleading hkind hpriority hbreaks) h
    rwa [String.ofList_toList] at hword
  cases literal with
  | string value =>
      apply hsingle
      rw [toList_label_string, leading?_string (standsFor_of_plain hplain.1 hplain.2)]
      simp [Literal.kind]
  | number value =>
      cases value with
      | nan | infinite => cases hplain
      | finite negative magnitude =>
          rcases exists_inFull_label magnitude with ⟨whole, fraction, hdigits, hlabel⟩
          have hdigitsSpelled := hsingle (.number (.finite false magnitude))
            (by rw [hlabel]; exact leading?_inFull hdigits)
          cases negative with
          | false => exact hdigitsSpelled
          | true =>
              rcases exists_digit_of_inFull hdigits with ⟨c, cs, hcs, hc⟩
              rw [toList_label_negative]
              refine Spells.word .arithmetic ['-'] (by decide) ?_ hdigitsSpelled
              rw [hlabel, hcs]
              exact leading?_minus hc _
  | boolean value =>
      apply hsingle
      cases value <;> decide
  | time value => exact hsingle _ hspelled
  | «variable» name => exact hsingle _ hspelled

/-- Literals that a label spells so that they can be read from it. -/
def Literal.IsLegible (literal : Literal) : Prop :=
  literal.IsPlain ∧ literal.IsSpelled

theorem Expression.opens_label {expression : Expression}
    (h : ∀ literal ∈ expression.literals, literal.IsLegible) : opens expression.label.toList = true := by
  induction expression with
  | value literal =>
      rcases h literal (by simp [literals]) with ⟨hplain, hspelled⟩
      exact literal.opens_label hplain hspelled
  | arithmetic operator left right ihLeft _ | comparison operator left right ihLeft _ =>
      have hleft := ihLeft fun literal hmem => h literal (List.mem_append_left _ hmem)
      simp only [label, String.toList_append, List.append_assoc]
      exact opens_append hleft _

/-- The label of an expression in front of a break spells its words. -/
theorem Expression.spells {expression : Expression}
    (hlegible : ∀ literal ∈ expression.literals, literal.IsLegible) (hbreaks : breaks rest = true)
    (h : Spells rest words) : Spells (expression.label.toList ++ rest) (expression.words ++ words) := by
  induction expression generalizing rest words with
  | value literal =>
      rcases hlegible literal (by simp [literals]) with ⟨hplain, hspelled⟩
      exact literal.spells hplain hspelled hbreaks h
  | arithmetic operator left right ihLeft ihRight =>
      have hleft := fun literal hmem => hlegible literal (List.mem_append_left _ hmem)
      have hright := fun literal hmem => hlegible literal (List.mem_append_right _ hmem)
      have hopens := opens_append (right.opens_label hright) rest
      have hjoined := Spells.joined (by decide) (by cases operator <;> rfl)
        (leading?_arithmetic operator rfl) hopens (ihRight hright hbreaks h)
      have hall := ihLeft hleft rfl hjoined
      simpa [label, Expression.words] using hall
  | comparison operator left right ihLeft ihRight =>
      have hleft := fun literal hmem => hlegible literal (List.mem_append_left _ hmem)
      have hright := fun literal hmem => hlegible literal (List.mem_append_right _ hmem)
      have hopens := opens_append (right.opens_label hright) rest
      have hjoined := Spells.joined (by decide) (by cases operator <;> rfl)
        (leading?_comparison operator hopens) hopens (ihRight hright hbreaks h)
      have hall := ihLeft hleft rfl hjoined
      simpa [label, Expression.words] using hall

/-! ### Calls -/

/-- The labels of expressions with commas between them. -/
def listLabel (items : List Expression) : String :=
  ", ".intercalate (items.map Expression.label)

theorem listLabel_cons {item : Expression} {others : List Expression} (h : others ≠ []) :
    (listLabel (item :: others)).toList = item.label.toList ++ ',' :: ' ' :: (listLabel others).toList := by
  rw [listLabel, List.map_cons, String.intercalate_cons_of_ne_nil (by simpa using h)]
  simp [listLabel]

theorem opens_listLabel {items : List Expression} (hne : items ≠ [])
    (h : ∀ item ∈ items, ∀ literal ∈ item.literals, literal.IsLegible) :
    opens (listLabel items).toList = true := by
  rcases List.exists_cons_of_ne_nil hne with ⟨item, others, rfl⟩
  have hitem := item.opens_label (h item List.mem_cons_self)
  by_cases hothers : others = []
  · simpa [hothers, listLabel] using hitem
  · rw [listLabel_cons hothers]
    exact opens_append hitem _

/-- The label of a list in front of a break spells its words. -/
theorem spells_listLabel {items : List Expression}
    (hlegible : ∀ item ∈ items, ∀ literal ∈ item.literals, literal.IsLegible)
    (hbreaks : breaks rest = true) (h : Spells rest words) :
    Spells ((listLabel items).toList ++ rest) (listWords items ++ words) := by
  fun_induction listWords items with
  | case1 => exact h
  | case2 item => simpa [listLabel] using item.spells (hlegible item (by simp)) hbreaks h
  | case3 item others hothers ih =>
      rcases List.forall_mem_cons.1 hlegible with ⟨hitem, hrest⟩
      have hne : others ≠ [] := by simpa using hothers
      have hspace := (ih hrest).space (opens_append (opens_listLabel hne hrest) rest)
      have hcomma := Spells.word .comma [','] (by decide)
        (leading?_sign_before (by decide) (by decide) (by decide) (by decide) rfl) hspace
      have hall := item.spells hitem rfl hcomma
      rw [listLabel_cons hne]
      simpa using hall

theorem Call.toList_label {call : Call} (h : opens call.argumentLabel.toList = true) :
    call.label.toList =
      '(' :: (call.name.toList ++ ':' :: ' ' :: (call.argumentLabel.toList ++ [')'])) := by
  have hne : call.argumentLabel ≠ "" := by
    intro hempty
    rw [hempty] at h
    cases h
  simp [Call.label, hne]

theorem Call.toList_label_empty {call : Call} (h : call.argumentLabel = "") :
    call.label.toList = '(' :: (call.name.toList ++ [':', ')']) := by
  simp [Call.label, h]

/-- The label of arguments in front of a break spells their words, and starts with some of them unless
there are no arguments. -/
theorem spells_argumentLabel (name : String) (pattern : Pattern) {arguments : Arguments}
    (hparsed : arguments ≠ .unparsed)
    (hlegible : ∀ item ∈ arguments.expressions, ∀ literal ∈ item.literals, literal.IsLegible)
    (hbreaks : breaks rest = true) (h : Spells rest words) :
    let label := (Call.mk name arguments.keyword? arguments.expressions pattern).argumentLabel.toList
    (opens label = true ∨ arguments = .list []) ∧ Spells (label ++ rest) (arguments.words ++ words) := by
  cases arguments with
  | unparsed => exact absurd rfl hparsed
  | keyword word left right =>
      have hleft := hlegible left (by simp [Arguments.expressions])
      have hright := hlegible right (by simp [Arguments.expressions])
      have hopens := opens_append (right.opens_label hright) rest
      have hjoined := Spells.joined (by cases word <;> decide)
        (by cases word <;> rfl) (leading?_keyword word rfl) hopens (right.spells hright hbreaks h)
      have hall := left.spells hleft rfl hjoined
      constructor
      · left
        simp only [Call.argumentLabel, Arguments.keyword?, Arguments.expressions, String.toList_append,
          List.append_assoc]
        exact opens_append (left.opens_label hleft) _
      · simpa [Call.argumentLabel, Arguments.keyword?, Arguments.expressions, Arguments.words] using hall
  | list items =>
      constructor
      · by_cases hitems : items = []
        · exact .inr (by rw [hitems])
        · exact .inl (opens_listLabel hitems hlegible)
      · exact spells_listLabel hlegible hbreaks h

/-- The head of a call in front of a break. -/
theorem Spells.callHead {name : String}
    (hhead : leading? ('(' :: (name.toList ++ [':'])) = some (.callHead, name.toList.length + 2))
    (hbreaks : breaks rest = true) (h : Spells rest words) :
    Spells ('(' :: (name.toList ++ ':' :: rest))
      (.word .callHead (String.ofList ('(' :: (name.toList ++ [':']))) :: words) := by
  have hleading := leading?_word_before ('(' :: (name.toList ++ [':'])) (by simpa using hhead)
    (by decide) (by decide) hbreaks
  simpa using Spells.word _ _ (by decide) hleading h

theorem spells_closeParen : Spells [')'] [.word .closeParen ")"] :=
  Spells.word .closeParen [')'] (by decide) (by decide) spells_nil

/-- The label of a call spells its head, the words of its arguments and a closing parenthesis. -/
theorem spells_callLabel {name : String} (pattern : Pattern) {arguments : Arguments}
    (hhead : leading? ('(' :: (name.toList ++ [':'])) = some (.callHead, name.toList.length + 2))
    (hparsed : arguments ≠ .unparsed)
    (hlegible : ∀ item ∈ arguments.expressions, ∀ literal ∈ item.literals, literal.IsLegible) :
    Spells (Call.mk name arguments.keyword? arguments.expressions pattern).label.toList
      (.word .callHead (String.ofList ('(' :: (name.toList ++ [':']))) ::
        (arguments.words ++ [.word .closeParen ")"])) := by
  rcases spells_argumentLabel name pattern hparsed hlegible rfl spells_closeParen with
    ⟨hopens | rfl, harguments⟩
  · rw [Call.toList_label hopens]
    exact (harguments.space (opens_append hopens [')'])).callHead hhead rfl
  · rw [Call.toList_label_empty rfl]
    exact spells_closeParen.callHead hhead rfl

end

end PassageMarkup
