/-
Module: PassageMarkup.Proofs.Classification
Layer: Proofs
Purpose: What the arguments of a call in a passage are. Whether a body has a form hangs on which of its
  tokens are literals and which are operators, and the kind of a scanned token tells that: an arithmetic
  token is one of the four signs, a comparison has the words of one operator with any blanks between them,
  and a token of a literal kind is a literal, but for a number that has other digits than those of ASCII
  and so no value. Hence the arguments of every call that the grammar accepts are decided by the form of
  its body.
Imports: Proofs.ArgumentReading, Proofs.Numerals, Proofs.Relocation, Proofs.ShapeErrors
Main exports: ReadsWords, exists_operator_of_arithmetic, exists_operator_of_comparison, IsNumeral,
  number_take, ascii_of_readChars?, IsNumeral.isSome_readChars?_iff, Token.TellsByKind,
  tellsByKind_of_mem_scan, Classified, classified_ofTokens, arguments_of_call
-/
import PassageMarkup.Proofs.ArgumentReading
import PassageMarkup.Proofs.Numerals
import PassageMarkup.Proofs.Relocation
import PassageMarkup.Proofs.ShapeErrors

namespace PassageMarkup

open Text Recognise Number

/-! ### Words -/

namespace Text

theorem wordsFrom_append {word : List Char} (hword : ∀ c ∈ word, isBlank c = false)
    (before rest : List Char) :
    wordsFrom before (word ++ rest) = wordsFrom (word.reverse ++ before) rest := by
  induction word generalizing before with
  | nil => rfl
  | cons c word ih =>
      rcases List.forall_mem_cons.1 hword with ⟨hfirst, hothers⟩
      simp [wordsFrom, hfirst, ih hothers]

theorem wordsFrom_gap {gap : List Char} (hgap : ∀ c ∈ gap, isBlank c = true) (rest : List Char) :
    wordsFrom [] (gap ++ rest) = wordsFrom [] rest := by
  induction gap with
  | nil => rfl
  | cons c gap ih =>
      rcases List.forall_mem_cons.1 hgap with ⟨hfirst, hothers⟩
      simp [wordsFrom, hfirst, ih hothers]

/-- Whether some characters are a word: there are some, and none is a blank. -/
def isUnbroken (word : List Char) : Bool :=
  !word.isEmpty && word.all fun c => !isBlank c

theorem isUnbroken_iff {word : List Char} :
    isUnbroken word = true ↔ word ≠ [] ∧ ∀ c ∈ word, isBlank c = false := by
  simp [isUnbroken]

theorem wordsFrom_word {word : List Char} (h : isUnbroken word = true) : wordsFrom [] word = [word] := by
  rcases isUnbroken_iff.1 h with ⟨hne, hword⟩
  have happend := wordsFrom_append hword [] []
  simpa [wordsFrom, hne] using happend

/-- A word with blanks behind it is the first word. -/
theorem wordsFrom_word_gap {word gap : List Char} (h : isUnbroken word = true) (hne : gap ≠ [])
    (hgap : ∀ c ∈ gap, isBlank c = true) (rest : List Char) :
    wordsFrom [] (word ++ (gap ++ rest)) = word :: wordsFrom [] rest := by
  rcases isUnbroken_iff.1 h with ⟨hword, hchars⟩
  rcases List.exists_cons_of_ne_nil hne with ⟨c, gap, rfl⟩
  rcases List.forall_mem_cons.1 hgap with ⟨hfirst, hothers⟩
  rw [wordsFrom_append hchars, List.cons_append]
  simp [wordsFrom, hfirst, hword, wordsFrom_gap hothers]

end Text

/-! ### Operators -/

namespace Recognise

/-- A recogniser that reads certain words and nothing else but blanks. -/
structure ReadsWords (words : List (List Char)) (read : List Char → Option Nat) : Prop where
  words_eq : ∀ {cs n}, read cs = some n → wordsFrom [] (cs.take n) = words

theorem readsWords_exactly {word : List Char} (h : isUnbroken word = true) :
    ReadsWords [word] (exactly word) := by
  constructor
  intro cs n hread
  rcases exactly_eq_some.1 hread with ⟨hpre, rfl⟩
  rw [take_of_prefix_self hpre, wordsFrom_word h]

theorem readsWords_reserved {word : List Char} (h : isUnbroken word = true) :
    ReadsWords [word] (reserved word) := by
  constructor
  intro cs n hread
  rcases reserved_eq_some.1 hread with ⟨hpre, _, rfl⟩
  rw [take_of_prefix_self hpre, wordsFrom_word h]

/-- A word, blanks, and more words. -/
theorem ReadsWords.after {word : List Char} {words : List (List Char)} {rest : List Char → Option Nat}
    (hrest : ReadsWords words rest) (h : isUnbroken word = true) :
    ReadsWords (word :: words) (followedBy (exactly word) (followedBy (run isBlank) rest)) := by
  constructor
  intro cs n hread
  rcases followedBy_eq_some.1 hread with ⟨a, b, hword, hmore, rfl⟩
  rcases followedBy_eq_some.1 hmore with ⟨gap, c, hgap, hlast, rfl⟩
  rcases exactly_eq_some.1 hword with ⟨hpre, rfl⟩
  rcases run_eq_some.1 hgap with ⟨rfl, hpos⟩
  rw [List.take_add, List.take_add, take_of_prefix_self hpre, take_runLength,
    wordsFrom_word_gap h (List.length_pos_iff.1 hpos) (List.all_eq_true.1 List.all_takeWhile),
    hrest.words_eq hlast]

/-- What is read as certain words is squeezed to them. -/
theorem ReadsWords.squeeze {words : List (List Char)} {read : List Char → Option Nat}
    (h : ReadsWords words read) {cs : List Char} {n : Nat} (hread : read cs = some n) :
    squeeze (String.ofList (cs.take n)) = " ".intercalate (words.map String.ofList) := by
  rw [Text.squeeze, String.toList_ofList, h.words_eq hread]

end Recognise

/-- Every arithmetic sign is that of an operator. -/
theorem exists_operator_of_arithmetic {cs : List Char} {n : Nat}
    (h : Kind.arithmetic.recognise cs = some n) :
    ∃ operator : ArithmeticOperator, String.ofList (cs.take n) = operator.symbol := by
  rcases List.exists_of_findSome?_eq_some h with ⟨choice, hmem, hchoice⟩
  have hsign : ∀ {c : Char}, exactly [c] cs = some n → cs.take n = [c] := by
    intro c hread
    rcases exactly_eq_some.1 hread with ⟨hpre, rfl⟩
    exact take_of_prefix_self hpre
  simp only [List.mem_cons, List.not_mem_nil, or_false] at hmem
  rcases hmem with rfl | rfl | rfl | rfl
  · exact ⟨.subtract, by rw [hsign hchoice]; rfl⟩
  · exact ⟨.add, by rw [hsign hchoice]; rfl⟩
  · exact ⟨.multiply, by rw [hsign hchoice]; rfl⟩
  · exact ⟨.divide, by rw [hsign hchoice]; rfl⟩

/-- Every comparison has the words of an operator. -/
theorem exists_operator_of_comparison {cs : List Char} {n : Nat}
    (h : Kind.comparison.recognise cs = some n) :
    ∃ operator : ComparisonOperator, squeeze (String.ofList (cs.take n)) = operator.symbol := by
  rcases List.exists_of_findSome?_eq_some h with ⟨choice, hmem, hchoice⟩
  have hwords : ∀ {words : List (List Char)} (operator : ComparisonOperator), ReadsWords words choice →
      " ".intercalate (words.map String.ofList) = operator.symbol →
      ∃ operator : ComparisonOperator, squeeze (String.ofList (cs.take n)) = operator.symbol := by
    intro words operator hreads hsymbol
    exact ⟨operator, (hreads.squeeze hchoice).trans hsymbol⟩
  simp only [List.mem_cons, List.not_mem_nil, or_false] at hmem
  rcases hmem with rfl | rfl | rfl | rfl | rfl | rfl | rfl | rfl
  · exact hwords .greaterOrEqual (readsWords_exactly (by decide)) (by decide)
  · exact hwords .lessOrEqual (readsWords_exactly (by decide)) (by decide)
  · exact hwords .greater (readsWords_exactly (by decide)) (by decide)
  · exact hwords .less (readsWords_exactly (by decide)) (by decide)
  · exact hwords .isNot ((readsWords_reserved (by decide)).after (by decide)) (by decide)
  · exact hwords .is (readsWords_reserved (by decide)) (by decide)
  · exact hwords .contains (readsWords_reserved (by decide)) (by decide)
  · exact hwords .doesNotContain
      (((readsWords_reserved (by decide)).after (by decide)).after (by decide)) (by decide)

/-! ### Numbers -/

theorem run_take {accept : Char → Bool} {cs : List Char} {n : Nat} (h : run accept cs = some n) :
    cs.take n ≠ [] ∧ ∀ c ∈ cs.take n, accept c = true := by
  rcases run_eq_some.1 h with ⟨rfl, hpos⟩
  rw [take_runLength]
  exact ⟨List.length_pos_iff.1 hpos, List.all_eq_true.1 List.all_takeWhile⟩

/-- Characters that are a numeral in full, with digits of any script. -/
def IsNumeral (text : List Char) : Prop :=
  ∃ whole fraction, text = inFull whole fraction ∧ whole ≠ [] ∧
    (∀ c ∈ whole, isDigit c = true) ∧ ∀ c ∈ fraction, isDigit c = true

theorem isNumeral_of_run {cs : List Char} {n : Nat} (h : run isDigit cs = some n) :
    IsNumeral (cs.take n) := by
  rcases run_take h with ⟨hne, hchars⟩
  exact ⟨cs.take n, [], rfl, hne, hchars, by simp⟩

theorem isNumeral_of_fraction {cs : List Char} {n : Nat}
    (h : followedBy (run isDigit) fraction cs = some n) : IsNumeral (cs.take n) := by
  rcases followedBy_eq_some.1 h with ⟨a, b, hwhole, hfraction, rfl⟩
  rcases followedBy_eq_some.1 hfraction with ⟨p, q, hpoint, hdigits, rfl⟩
  rcases exactly_eq_some.1 hpoint with ⟨hpre, rfl⟩
  rcases run_take hwhole with ⟨hne, hchars⟩
  rcases run_take hdigits with ⟨hsome, hbehind⟩
  refine ⟨cs.take a, _, ?_, hne, hchars, hbehind⟩
  rw [List.take_add, List.take_add, take_of_prefix_self hpre, inFull_of_ne_nil _ hsome]
  rfl

/-- A number is spelled in full, with digits of any script. -/
theorem number_take {cs : List Char} {n : Nat} (h : Recognise.number cs = some n) :
    IsNumeral (cs.take n) := by
  rcases List.exists_of_findSome?_eq_some h with ⟨choice, hmem, hchoice⟩
  simp only [List.mem_cons, List.not_mem_nil, or_false] at hmem
  rcases hmem with rfl | rfl
  · exact isNumeral_of_fraction (bounded_eq_some.1 hchoice).1
  · exact isNumeral_of_run (bounded_eq_some.1 hchoice).1

/-- Whether a character is one of ASCII. -/
def isAscii (c : Char) : Bool :=
  c.toNat < 0x80

theorem isAscii_of_isAsciiDigit {c : Char} (h : isAsciiDigit c = true) : isAscii c = true := by
  simp only [isAsciiDigit, Bool.and_eq_true, decide_eq_true_eq] at h
  have hle : c.toNat ≤ '9'.toNat := h.2
  exact decide_eq_true (Nat.lt_of_le_of_lt hle (by decide))

/-- Lowering the case makes no ASCII character of any other. -/
theorem isAscii_of_toLower {c : Char} (h : isAscii c.toLower = true) : isAscii c = true := by
  by_cases hupper : 'A'.val ≤ c.val ∧ c.val ≤ 'Z'.val
  · have hle : c.toNat ≤ 'Z'.toNat := hupper.2
    exact decide_eq_true (Nat.lt_of_le_of_lt hle (by decide))
  · have hsame : c.toLower = c := dif_neg hupper
    rwa [hsame] at h

theorem ascii_of_word {cs : List Char} {word : String}
    (h : String.ofList (cs.map Char.toLower) = word) (hword : word.toList.all isAscii = true) :
    ∀ c ∈ cs, isAscii c = true := by
  intro c hmem
  apply isAscii_of_toLower
  apply List.all_eq_true.1 hword
  rw [← h, String.toList_ofList]
  exact List.mem_map_of_mem hmem

theorem ascii_of_splitSign {cs : List Char} (h : ∀ c ∈ (splitSign cs).2, isAscii c = true) :
    ∀ c ∈ cs, isAscii c = true := by
  unfold splitSign at h
  split at h
  · exact List.forall_mem_cons.2 ⟨rfl, h⟩
  · exact List.forall_mem_cons.2 ⟨rfl, h⟩
  · exact h

theorem ascii_of_dropWhile {cs : List Char} (h : ∀ c ∈ cs.dropWhile isAsciiDigit, isAscii c = true) :
    ∀ c ∈ cs, isAscii c = true := by
  rw [← List.takeWhile_append_dropWhile (p := isAsciiDigit) (l := cs), List.forall_mem_append]
  exact ⟨fun c hmem => isAscii_of_isAsciiDigit (List.all_eq_true.1 List.all_takeWhile c hmem), h⟩

theorem ascii_of_readExponent? {cs : List Char} {exponent : Int} (h : readExponent? cs = some exponent) :
    ∀ c ∈ cs, isAscii c = true := by
  unfold readExponent? at h
  split at h
  · simp
  · next c cs =>
    split at h
    · next hmark =>
      have hfirst : isAscii c = true := by
        rcases hmark with rfl | rfl <;> rfl
      dsimp only at h
      split at h
      · cases h
      · next hdigits =>
        have hall : ∀ d ∈ (splitSign cs).2, isAsciiDigit d = true := by
          simpa using (Bool.or_eq_false_iff.1 (Bool.eq_false_iff.2 hdigits)).2
        have hothers := ascii_of_splitSign fun d hmem => isAscii_of_isAsciiDigit (hall d hmem)
        exact List.forall_mem_cons.2 ⟨hfirst, hothers⟩
    · cases h

theorem ascii_of_readDigits? {negative : Bool} {cs : List Char} {value : Binary64}
    (h : readDigits? negative cs = some value) : ∀ c ∈ cs, isAscii c = true := by
  apply ascii_of_dropWhile
  unfold readDigits? at h
  dsimp only at h
  split at h
  · next rest hrest =>
    split at h
    · cases h
    · rcases Option.map_eq_some_iff.1 h with ⟨exponent, hexponent, _⟩
      rw [hrest]
      exact List.forall_mem_cons.2 ⟨rfl, ascii_of_dropWhile (ascii_of_readExponent? hexponent)⟩
  · split at h
    · cases h
    · rcases Option.map_eq_some_iff.1 h with ⟨exponent, hexponent, _⟩
      exact ascii_of_readExponent? hexponent

/-- A numeral that can be read is spelled in ASCII. -/
theorem ascii_of_readChars? {cs : List Char} {value : Binary64} (h : Binary64.readChars? cs = some value) :
    ∀ c ∈ cs, isAscii c = true := by
  apply ascii_of_splitSign
  unfold Binary64.readChars? at h
  dsimp only at h
  split at h
  · next hword => exact ascii_of_word hword (by decide)
  · split at h
    · next hword =>
      rcases hword with hword | hword
      · exact ascii_of_word hword (by decide)
      · exact ascii_of_word hword (by decide)
    · exact ascii_of_readDigits? h

/-- Among ASCII characters the digits of any script are the ASCII digits. -/
theorem isAsciiDigit_of_isDigit {c : Char} (hascii : isAscii c = true) (h : isDigit c = true) :
    isAsciiDigit c = true := by
  rw [isDigit, if_pos (of_decide_eq_true hascii)] at h
  exact h

theorem forall_digits_of_inFull {P : Char → Prop} {whole fraction : List Char}
    (h : ∀ c ∈ inFull whole fraction, P c) : (∀ c ∈ whole, P c) ∧ ∀ c ∈ fraction, P c := by
  cases fraction with
  | nil => exact ⟨h, by simp⟩
  | cons d ds =>
      rcases List.forall_mem_append.1 h with ⟨hwhole, hbehind⟩
      exact ⟨hwhole, (List.forall_mem_cons.1 hbehind).2⟩

/-- A numeral with digits of any script can be read exactly if they are ASCII digits. -/
theorem IsNumeral.isSome_readChars?_iff {text : List Char} (h : IsNumeral text) :
    (Binary64.readChars? text).isSome = true ↔
      ∀ c ∈ text, isDigit c = true → isAsciiDigit c = true := by
  rcases h with ⟨whole, fraction, htext, hne, hwhole, hfraction⟩
  constructor
  · intro hsome c hmem hdigit
    rcases Option.isSome_iff_exists.1 hsome with ⟨value, hvalue⟩
    exact isAsciiDigit_of_isDigit (ascii_of_readChars? hvalue c hmem) hdigit
  · intro hascii
    rw [htext] at hascii ⊢
    rcases forall_digits_of_inFull hascii with ⟨hfront, hbehind⟩
    have hdigits : Digits whole fraction :=
      ⟨hne, fun c hmem => hfront c hmem (hwhole c hmem), fun c hmem => hbehind c hmem (hfraction c hmem)⟩
    rw [Binary64.readChars?_inFull hdigits]
    rfl

/-! ### Tokens of a passage -/

/-- The kinds of token that are literals. -/
def Kind.isLiteral : Kind → Bool
  | .string | .number | .boolean | .time | .variable => true
  | _ => false

/-- The kind of a token tells which part of an expression it is: a literal, unless it is a number with
digits other than those of ASCII, or an operator. -/
structure Token.TellsByKind (token : Token) : Prop where
  literal_iff : token.literal?.isSome = true ↔ token.kind.isLiteral = true ∧
    (token.kind = .number → ∀ c ∈ token.text.toList, isDigit c = true → isAsciiDigit c = true)
  arithmetic : token.kind = .arithmetic → ∃ operator : ArithmeticOperator, token.text = operator.symbol
  comparison : token.kind = .comparison →
    ∃ operator : ComparisonOperator, squeeze token.text = operator.symbol

/-- Every token that the scan makes tells by its kind which part of an expression it is. -/
theorem tellsByKind_of_mem_scan {source : String} {token : Token} (h : token ∈ scan source) :
    token.TellsByKind := by
  have hread := recognise_of_leading (leading?_of_mem_scan h)
  refine ⟨?_, ?_, ?_⟩
  · cases hkind : token.kind with
    | number =>
        rw [hkind] at hread
        have hnumeral := number_take hread
        rw [List.take_length] at hnumeral
        simp [Token.literal?, hkind, Kind.isLiteral, Binary64.read?, hnumeral.isSome_readChars?_iff]
    | _ => simp [Token.literal?, hkind, Kind.isLiteral]
  · intro hkind
    rw [hkind] at hread
    simpa using exists_operator_of_arithmetic hread
  · intro hkind
    rw [hkind] at hread
    simpa using exists_operator_of_comparison hread

/-! ### The arguments of a call -/

/-- Arguments that the form of a body decides: they have a keyword, are a list or are left unparsed exactly
if the body has the form of a keyword argument, of a list or neither, and the expressions are those of the
form; no body has both forms, and none has one of them in two ways. -/
structure Classified (body : List Token) (arguments : Arguments) : Prop where
  keyword_iff : ∀ word left right, arguments = .keyword word left right ↔
    ∃ form : KeywordForm, form.tokens = body ∧ form.arguments = .keyword word left right
  list_iff : ∀ items, arguments = .list items ↔
    ∃ form : ListForm, form.tokens = body ∧ form.expressions = items
  unparsed_iff : arguments = .unparsed ↔
    (∀ form : KeywordForm, form.tokens ≠ body) ∧ ∀ form : ListForm, form.tokens ≠ body
  not_both : (∃ form : KeywordForm, form.tokens = body) → ∀ form : ListForm, form.tokens ≠ body
  keyword_unique : ∀ form form' : KeywordForm, form.tokens = body → form'.tokens = body → form = form'
  list_unique : ∀ form form' : ListForm, form.tokens = body → form'.tokens = body → form = form'

theorem classified_ofTokens (body : List Token) : Classified body (Arguments.ofTokens body) where
  keyword_iff _ _ _ := Arguments.ofTokens_eq_keyword_iff
  list_iff _ := Arguments.ofTokens_eq_list_iff
  unparsed_iff := Arguments.ofTokens_eq_unparsed_iff
  not_both := by
    rintro ⟨form, rfl⟩ list hlist
    exact form.tokens_ne list hlist.symm
  keyword_unique form form' h h' := KeywordForm.tokens_inj (h.trans h'.symm)
  list_unique form form' h h' := ListForm.tokens_inj (h.trans h'.symm)

/-- The arguments of every call that the grammar accepts, at whatever depth of a passage, are decided by the
form of the tokens between its head and the parenthesis that closes it; and these tokens tell by their kinds
which of them are literals and operators, save that a number is a literal exactly if its digits are those
of ASCII. These are the arguments that the rules of ordered choice take behind the head, up to that
parenthesis, whatever follows. -/
theorem arguments_of_call {source : String} {phrases : List Phrase}
    (hphrases : phrasesOf source = .ok phrases) {call : CallText} (hcall : call ∈ callsOf phrases) :
    call.Fits ∧ call.yield <:+: tokensOf source ∧
      Classified call.body (Arguments.ofTokens call.body) ∧
      (∀ token ∈ call.body, token.TellsByKind) ∧
      ∀ rest, Grammar.arguments.Takes (call.body ++ call.closing :: rest)
        (Arguments.ofTokens call.body, call.closing) rest := by
  rw [phrasesOf_eq, except_mapError_eq_ok] at hphrases
  rcases readPhrases_fits hphrases with ⟨hfits, hyield⟩
  have hpart : yieldAll phrases <:+: tokensOf source := hyield ▸ List.infix_refl _
  rcases fits_of_mem_callsOf hfits hpart call hcall with ⟨hcallFits, hcallPart⟩
  refine ⟨hcallFits, hcallPart, classified_ofTokens call.body, ?_, ?_⟩
  · intro token hmem
    have hinside : token ∈ call.yield := by simp [CallText.yield, hmem]
    exact tellsByKind_of_mem_scan
      (mem_scan_of_mem_tokensOf (hcallPart.mem hinside) (hcallFits.not_isBracket token hinside))
  · exact fun rest => (yields_arguments hcallFits.2.1 hcallFits.2.2 rest).takes

/-- A keyword argument that subtracts a negative number, and inside the hook of the call a list but for a
digit that is not ASCII. -/
theorem arguments_of_call_inside : ∃ phrases first second,
    phrasesOf "(set: $a to $b - -2)[(at: 1, \u0663)]" = .ok phrases ∧
      callsOf phrases = [first, second] ∧
      (∃ form : KeywordForm, form.tokens = first.body ∧
        form.arguments = .keyword .to (.value (.variable "a"))
          (.arithmetic .subtract (.value (.variable "b")) (.value (.number (.ofDecimal true 2 0))))) ∧
      (∀ form : KeywordForm, form.tokens ≠ second.body) ∧
      ∀ form : ListForm, form.tokens ≠ second.body := by
  have hcalls : (phrasesOf "(set: $a to $b - -2)[(at: 1, \u0663)]").toOption.map (fun phrases =>
      (callsOf phrases).map fun call => Arguments.ofTokens call.body) =
        some [.keyword .to (.value (.variable "a"))
          (.arithmetic .subtract (.value (.variable "b")) (.value (.number (.ofDecimal true 2 0)))),
        .unparsed] := by decide +kernel
  cases hphrases : phrasesOf "(set: $a to $b - -2)[(at: 1, \u0663)]" with
  | error e =>
      rw [hphrases] at hcalls
      cases hcalls
  | ok phrases =>
      rw [hphrases] at hcalls
      rcases List.map_eq_cons_iff.1 (Option.some.inj hcalls) with ⟨first, others, hlist, hkeyword, hothers⟩
      rcases List.map_eq_cons_iff.1 hothers with ⟨second, rest, rfl, hunparsed, hrest⟩
      obtain rfl := List.map_eq_nil_iff.1 hrest
      have hfirst : first ∈ callsOf phrases := by simp [hlist]
      have hsecond : second ∈ callsOf phrases := by simp [hlist]
      have hform := ((arguments_of_call hphrases hfirst).2.2.1.keyword_iff _ _ _).1 hkeyword
      have hneither := (arguments_of_call hphrases hsecond).2.2.1.unparsed_iff.1 hunparsed
      exact ⟨phrases, first, second, rfl, hlist, hform, hneither⟩

end PassageMarkup
