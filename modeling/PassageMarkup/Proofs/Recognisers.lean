/-
Module: PassageMarkup.Proofs.Recognisers
Layer: Proofs
Purpose: What the recognisers read when the text is cut behind them. A recogniser may look past the part
  it takes: a reserved word asks for a word boundary, `is` looks for a `not`, a number looks for a
  fraction. A cut changes its answer only where it splits a word, and a cut that splits a word while no
  `$` stands before it never falls on the end of a token. So every recogniser of a kind is stable under
  clean cuts: what fits before the cut still fits, and what did not fit still does not.
Imports: Proofs.Characters
Main exports: CleanCut, Prefixed, Piece, WordPiece, WordToken, FixedToken, Stable, stable_firstOf
-/
import PassageMarkup.Proofs.Characters

namespace PassageMarkup.Recognise

open PassageMarkup.Text

/-! ### Cuts -/

/-- A cut that splits no word, or has a `$` somewhere in front of it: a variable may end inside a
longer word, since its name takes ASCII characters only. -/
def CleanCut (front back : List Char) : Prop :=
  ∀ last next, front.getLast? = some last → back.head? = some next →
    isWord last = true → isWord next = true → '$' ∈ front

theorem cleanCut_of_atBoundary {front back : List Char} (h : atBoundary back = true) :
    CleanCut front back := by
  intro last next _ hnext _ hword
  cases back with
  | nil => simp at hnext
  | cons c cs =>
      simp only [List.head?_cons, Option.some.injEq] at hnext
      subst hnext
      simp [atBoundary, hword] at h

theorem cleanCut_of_not_isWord {front back : List Char} {last : Char}
    (hlast : front.getLast? = some last) (hword : isWord last = false) : CleanCut front back := by
  intro other next hother _ hotherWord _
  rw [hlast, Option.some.injEq] at hother
  rw [← hother, hword] at hotherWord
  exact absurd hotherWord Bool.false_ne_true

/-- More text in front keeps a cut clean. -/
theorem CleanCut.append {before front back : List Char} (h : CleanCut front back)
    (hfront : front ≠ []) : CleanCut (before ++ front) back := by
  intro last next hlast hnext hword hnextWord
  have hlast' : front.getLast? = some last := by
    rwa [List.getLast?_append, List.getLast?_eq_some_getLast hfront, Option.some_or,
      ← List.getLast?_eq_some_getLast hfront] at hlast
  exact List.mem_append_right _ (h last next hlast' hnext hword hnextWord)

/-- A clean cut behind a word without a mark is a word boundary. -/
theorem CleanCut.atBoundary {front back : List Char} (h : CleanCut front back) {last : Char}
    (hlast : front.getLast? = some last) (hword : isWord last = true) (hmark : '$' ∉ front) :
    atBoundary back = true := by
  cases back with
  | nil => rfl
  | cons c cs =>
      cases hc : isWord c with
      | false => simp [Text.atBoundary, hc]
      | true => exact absurd (h last c hlast rfl hword hc) hmark

/-- A boundary in a longer text is one in the text cut short. -/
theorem atBoundary_of_append {front back : List Char} (h : atBoundary (front ++ back) = true) :
    atBoundary front = true := by
  cases front with
  | nil => rfl
  | cons c cs => exact h

/-- A boundary before the end of a text stays one whatever follows. -/
theorem atBoundary_append {front back : List Char} (hfront : front ≠ [])
    (h : atBoundary front = true) : atBoundary (front ++ back) = true := by
  cases front with
  | nil => exact absurd rfl hfront
  | cons c cs => exact h

/-! ### Pieces of tokens -/

/-- A recogniser that reads a nonempty part in front, and still reads it when the text is cut
somewhere behind that part. -/
structure Prefixed (read : List Char → Option Nat) : Prop where
  pos : ∀ {cs n}, read cs = some n → 0 < n
  le_length : ∀ {cs n}, read cs = some n → n ≤ cs.length
  cut : ∀ {front back n}, read (front ++ back) = some n → n ≤ front.length → read front = some n

/-- A recogniser of a part of a token. What it reads short of the end it reads whatever follows. -/
structure Piece (read : List Char → Option Nat) : Prop extends Prefixed read where
  firm : ∀ {front back n}, read front = some n → n < front.length → read (front ++ back) = some n
  noMark : ∀ {cs n}, read cs = some n → '$' ∉ cs.take n

/-- A piece that ends in a word character, and goes on only with word characters. -/
structure WordPiece (read : List Char → Option Nat) : Prop extends Piece read where
  extend : ∀ {front back}, read front = some front.length → atBoundary back = true →
    read (front ++ back) = some front.length
  wordEnd : ∀ {cs n}, read cs = some n → ∃ c, (cs.take n).getLast? = some c ∧ isWord c = true

/-- A token that ends in a word character at a word boundary. -/
structure WordToken (read : List Char → Option Nat) : Prop extends WordPiece read where
  boundary : ∀ {cs n}, read cs = some n → atBoundary (cs.drop n) = true

/-- A token whose spelling shows where it ends, with a character that is neither a word character
nor a blank. -/
structure FixedToken (read : List Char → Option Nat) : Prop extends Prefixed read where
  fixed : ∀ {front back n}, read front = some n → read (front ++ back) = some n
  markEnd : ∀ {cs n}, read cs = some n →
    ∃ c, (cs.take n).getLast? = some c ∧ isWord c = false ∧ isBlank c = false

/-- A recogniser that a clean cut does not disturb, and that itself ends in a clean cut. What it reads
has no blank at its end, unless it starts with one. -/
structure Stable (read : List Char → Option Nat) : Prop where
  pos : ∀ {cs n}, read cs = some n → 0 < n
  le_length : ∀ {cs n}, read cs = some n → n ≤ cs.length
  keep : ∀ {front back n}, CleanCut front back → read (front ++ back) = some n →
    n ≤ front.length → read front = some n
  reflect : ∀ {front back}, CleanCut front back → (read front).isSome → (read (front ++ back)).isSome
  clean : ∀ {cs n}, read cs = some n → CleanCut (cs.take n) (cs.drop n)
  solid : ∀ {cs n}, read cs = some n → (∃ c, cs.head? = some c ∧ isBlank c = true) ∨
    ∃ c, (cs.take n).getLast? = some c ∧ isBlank c = false

theorem WordToken.stable {read : List Char → Option Nat} (h : WordToken read) : Stable read where
  pos := h.pos
  le_length := h.le_length
  keep _ hread hle := h.cut hread hle
  reflect := by
    intro front back hclean hread
    obtain ⟨n, hn⟩ := Option.isSome_iff_exists.1 hread
    rcases Nat.lt_or_eq_of_le (h.le_length hn) with hlt | rfl
    · simp [h.firm hn hlt]
    · -- the token ends at the cut, which therefore is a word boundary
      obtain ⟨last, hlast, hword⟩ := h.wordEnd hn
      have hmark := h.noMark hn
      rw [List.take_length] at hlast hmark
      simp [h.extend hn (hclean.atBoundary hlast hword hmark)]
  clean hread := cleanCut_of_atBoundary (h.boundary hread)
  solid := by
    intro cs n hread
    obtain ⟨last, hlast, hword⟩ := h.wordEnd hread
    exact .inr ⟨last, hlast, not_isBlank_of_isWord hword⟩

theorem FixedToken.stable {read : List Char → Option Nat} (h : FixedToken read) : Stable read where
  pos := h.pos
  le_length := h.le_length
  keep _ hread hle := h.cut hread hle
  reflect := by
    intro front back _ hread
    obtain ⟨n, hn⟩ := Option.isSome_iff_exists.1 hread
    simp [h.fixed hn]
  clean := by
    intro cs n hread
    obtain ⟨last, hlast, hword, _⟩ := h.markEnd hread
    exact cleanCut_of_not_isWord hlast hword
  solid := by
    intro cs n hread
    obtain ⟨last, hlast, _, hblank⟩ := h.markEnd hread
    exact .inr ⟨last, hlast, hblank⟩

/-! ### Fixed spellings -/

theorem exactly_eq_some {spelling cs : List Char} {n : Nat} :
    exactly spelling cs = some n ↔ spelling <+: cs ∧ spelling.length = n := by
  simp [exactly]

theorem reserved_eq_some {word cs : List Char} {n : Nat} :
    reserved word cs = some n ↔
      word <+: cs ∧ atBoundary (cs.drop word.length) = true ∧ word.length = n := by
  simp [reserved, and_assoc]

theorem take_of_prefix_self {spelling cs : List Char} (h : spelling <+: cs) :
    cs.take spelling.length = spelling := by
  obtain ⟨rest, rfl⟩ := h
  simp

/-- A spelling in a text is in the text cut behind it. -/
theorem prefix_of_prefix_append {spelling front back : List Char} (h : spelling <+: front ++ back)
    (hle : spelling.length ≤ front.length) : spelling <+: front :=
  List.prefix_of_prefix_length_le h (List.prefix_append front back) hle

theorem prefixed_exactly {spelling : List Char} (hne : spelling ≠ []) :
    Prefixed (exactly spelling) where
  pos h := by
    rw [← (exactly_eq_some.1 h).2]
    exact List.length_pos_iff.2 hne
  le_length h := by
    rw [← (exactly_eq_some.1 h).2]
    exact (exactly_eq_some.1 h).1.length_le
  cut := by
    intro front back n h hle
    obtain ⟨hpre, rfl⟩ := exactly_eq_some.1 h
    exact exactly_eq_some.2 ⟨prefix_of_prefix_append hpre hle, rfl⟩

/-- A fixed spelling is read whatever follows. -/
theorem exactly_append {spelling front back : List Char} {n : Nat}
    (h : exactly spelling front = some n) : exactly spelling (front ++ back) = some n := by
  obtain ⟨hpre, rfl⟩ := exactly_eq_some.1 h
  exact exactly_eq_some.2 ⟨List.prefix_append_of_prefix hpre, rfl⟩

theorem piece_exactly {spelling : List Char} (hne : spelling ≠ []) (hmark : '$' ∉ spelling) :
    Piece (exactly spelling) where
  toPrefixed := prefixed_exactly hne
  firm h _ := exactly_append h
  noMark := by
    intro cs n h
    obtain ⟨hpre, rfl⟩ := exactly_eq_some.1 h
    rwa [take_of_prefix_self hpre]

/-- A spelling that ends in a sign: a character that is neither a word character nor a blank. -/
def endsInSign (spelling : List Char) : Bool :=
  spelling.getLast?.any fun last => !isWord last && !isBlank last

/-- A spelling that ends in a word character and holds no mark. -/
def endsInWord (spelling : List Char) : Bool :=
  spelling.getLast?.any isWord && !spelling.contains '$'

theorem endsInSign_iff {spelling : List Char} : endsInSign spelling = true ↔
    ∃ last, spelling.getLast? = some last ∧ isWord last = false ∧ isBlank last = false := by
  cases h : spelling.getLast? <;> simp [endsInSign, h]

theorem endsInWord_iff {spelling : List Char} : endsInWord spelling = true ↔
    (∃ last, spelling.getLast? = some last ∧ isWord last = true) ∧ '$' ∉ spelling := by
  cases h : spelling.getLast? <;> simp [endsInWord, h]

theorem ne_nil_of_getLast {cs : List Char} {last : Char} (h : cs.getLast? = some last) : cs ≠ [] := by
  rintro rfl
  simp at h

theorem fixedToken_exactly {spelling : List Char} (h : endsInSign spelling = true) :
    FixedToken (exactly spelling) where
  toPrefixed := by
    obtain ⟨last, hlast, _⟩ := endsInSign_iff.1 h
    exact prefixed_exactly (ne_nil_of_getLast hlast)
  fixed h := exactly_append h
  markEnd := by
    intro cs n hread
    obtain ⟨hpre, rfl⟩ := exactly_eq_some.1 hread
    rw [take_of_prefix_self hpre]
    exact endsInSign_iff.1 h

theorem piece_of_endsInWord {spelling : List Char} (h : endsInWord spelling = true) :
    Piece (exactly spelling) := by
  obtain ⟨⟨last, hlast, _⟩, hmark⟩ := endsInWord_iff.1 h
  exact piece_exactly (ne_nil_of_getLast hlast) hmark

theorem wordToken_reserved {word : List Char} (hword : endsInWord word = true) :
    WordToken (reserved word) where
  pos h := by
    obtain ⟨⟨last, hlast, _⟩, _⟩ := endsInWord_iff.1 hword
    rw [← (reserved_eq_some.1 h).2.2]
    exact List.length_pos_iff.2 (ne_nil_of_getLast hlast)
  le_length h := by
    rw [← (reserved_eq_some.1 h).2.2]
    exact (reserved_eq_some.1 h).1.length_le
  cut := by
    intro front back n h hle
    obtain ⟨hpre, hbound, rfl⟩ := reserved_eq_some.1 h
    rw [List.drop_append_of_le_length hle] at hbound
    exact reserved_eq_some.2 ⟨prefix_of_prefix_append hpre hle, atBoundary_of_append hbound, rfl⟩
  firm := by
    intro front back n h hlt
    obtain ⟨hpre, hbound, rfl⟩ := reserved_eq_some.1 h
    refine reserved_eq_some.2 ⟨List.prefix_append_of_prefix hpre, ?_, rfl⟩
    rw [List.drop_append_of_le_length (Nat.le_of_lt hlt)]
    refine atBoundary_append ?_ hbound
    simpa using hlt
  noMark := by
    intro cs n h
    obtain ⟨hpre, _, rfl⟩ := reserved_eq_some.1 h
    rw [take_of_prefix_self hpre]
    exact (endsInWord_iff.1 hword).2
  extend := by
    intro front back h hback
    obtain ⟨hpre, _, hlength⟩ := reserved_eq_some.1 h
    refine reserved_eq_some.2 ⟨List.prefix_append_of_prefix hpre, ?_, hlength⟩
    rw [hlength, List.drop_left]
    exact hback
  wordEnd := by
    intro cs n h
    obtain ⟨hpre, _, rfl⟩ := reserved_eq_some.1 h
    rw [take_of_prefix_self hpre]
    exact (endsInWord_iff.1 hword).1
  boundary := by
    intro cs n h
    obtain ⟨_, hbound, rfl⟩ := reserved_eq_some.1 h
    exact hbound

/-! ### Runs -/

theorem run_eq_some {accept : Char → Bool} {cs : List Char} {n : Nat} :
    run accept cs = some n ↔ runLength accept cs = n ∧ 0 < n := by
  unfold run
  split
  · next hzero =>
    simp only [reduceCtorEq, false_iff]
    omega
  · next hne =>
    simp only [Option.some.injEq]
    omega

theorem runLength_le (accept : Char → Bool) (cs : List Char) : runLength accept cs ≤ cs.length :=
  (List.takeWhile_prefix accept).length_le

theorem take_runLength (accept : Char → Bool) (cs : List Char) :
    cs.take (runLength accept cs) = cs.takeWhile accept :=
  take_of_prefix_self (List.takeWhile_prefix accept)

/-- A run that ends before a cut is the same run behind it. -/
theorem runLength_of_append {accept : Char → Bool} {front back : List Char}
    (h : runLength accept (front ++ back) ≤ front.length) :
    runLength accept front = runLength accept (front ++ back) := by
  unfold runLength at h ⊢
  rw [List.takeWhile_append] at h ⊢
  split
  · next hall =>
    rw [if_pos hall, List.length_append] at h
    rw [List.length_append]
    omega
  · rfl

/-- A run that ends short of the end of a text is the same run whatever follows. -/
theorem runLength_append {accept : Char → Bool} {front back : List Char}
    (h : runLength accept front < front.length) :
    runLength accept (front ++ back) = runLength accept front := by
  unfold runLength at h ⊢
  rw [List.takeWhile_append, if_neg (Nat.ne_of_lt h)]

/-- The character behind a run is not of its class. -/
theorem not_accept_of_drop_runLength {accept : Char → Bool} {cs rest : List Char} {next : Char}
    (h : cs.drop (runLength accept cs) = next :: rest) : accept next = false := by
  induction cs with
  | nil => simp at h
  | cons c cs ih =>
      cases hc : accept c with
      | true => exact ih (by simpa [runLength, hc] using h)
      | false =>
          have hfirst : c = next := by
            simp only [runLength, List.takeWhile_cons, hc, Bool.false_eq_true, if_false,
              List.length_nil, List.drop_zero, List.cons.injEq] at h
            exact h.1
          exact hfirst ▸ hc

theorem getLast_takeWhile {accept : Char → Bool} {cs : List Char} (h : 0 < runLength accept cs) :
    ∃ c, (cs.takeWhile accept).getLast? = some c ∧ accept c = true := by
  have hne : cs.takeWhile accept ≠ [] := List.length_pos_iff.1 h
  refine ⟨(cs.takeWhile accept).getLast hne, List.getLast?_eq_some_getLast hne, ?_⟩
  exact List.all_eq_true.1 List.all_takeWhile _ (List.getLast_mem hne)

theorem getLast_cons_takeWhile (accept : Char → Bool) {c : Char} (cs : List Char)
    (h : accept c = true) :
    ∃ last, (c :: cs.takeWhile accept).getLast? = some last ∧ accept last = true := by
  have hpos : 0 < runLength accept (c :: cs) := by simp [runLength, h]
  have hlast := getLast_takeWhile hpos
  rwa [List.takeWhile_cons, if_pos h] at hlast

/-- A run starts with a character of its class. -/
theorem head_of_run {accept : Char → Bool} {cs : List Char} {n : Nat} (h : run accept cs = some n) :
    ∃ c, cs.head? = some c ∧ accept c = true := by
  obtain ⟨hlength, hpos⟩ := run_eq_some.1 h
  cases cs with
  | nil =>
      simp only [runLength, List.takeWhile_nil, List.length_nil] at hlength
      omega
  | cons c cs =>
      cases haccept : accept c with
      | true => exact ⟨c, rfl, haccept⟩
      | false =>
          simp only [runLength, List.takeWhile_cons, haccept, Bool.false_eq_true, if_false,
            List.length_nil] at hlength
          omega

theorem piece_run {accept : Char → Bool} (hmark : accept '$' = false) : Piece (run accept) where
  pos h := (run_eq_some.1 h).2
  le_length h := by
    rw [← (run_eq_some.1 h).1]
    exact runLength_le _ _
  cut := by
    intro front back n h hle
    obtain ⟨rfl, hpos⟩ := run_eq_some.1 h
    exact run_eq_some.2 ⟨runLength_of_append hle, hpos⟩
  firm := by
    intro front back n h hlt
    obtain ⟨rfl, hpos⟩ := run_eq_some.1 h
    exact run_eq_some.2 ⟨runLength_append hlt, hpos⟩
  noMark := by
    intro cs n h hmem
    obtain ⟨rfl, _⟩ := run_eq_some.1 h
    rw [take_runLength] at hmem
    have haccept := List.all_eq_true.1 List.all_takeWhile _ hmem
    rw [hmark] at haccept
    exact Bool.false_ne_true haccept

theorem wordPiece_run {accept : Char → Bool} (hmark : accept '$' = false)
    (hword : ∀ {c}, accept c = true → isWord c = true) : WordPiece (run accept) where
  toPiece := piece_run hmark
  extend := by
    intro front back h hback
    obtain ⟨hlength, hpos⟩ := run_eq_some.1 h
    refine run_eq_some.2 ⟨?_, hpos⟩
    -- the text behind starts with no word character, so the run does not go on
    have hstop : back.takeWhile accept = [] := by
      cases back with
      | nil => rfl
      | cons c cs =>
          have hc : accept c = false := by
            rw [Bool.eq_false_iff]
            intro haccept
            simp [atBoundary, hword haccept] at hback
          simp [hc]
    unfold runLength at hlength ⊢
    rw [List.takeWhile_append, if_pos hlength, hstop, List.append_nil]
  wordEnd := by
    intro cs n h
    obtain ⟨rfl, hpos⟩ := run_eq_some.1 h
    obtain ⟨last, hlast, haccept⟩ := getLast_takeWhile hpos
    rw [take_runLength]
    exact ⟨last, hlast, hword haccept⟩

/-! ### Combinations -/

theorem followedBy_eq_some {first second : List Char → Option Nat} {cs : List Char} {n : Nat} :
    followedBy first second cs = some n ↔
      ∃ a b, first cs = some a ∧ second (cs.drop a) = some b ∧ a + b = n := by
  unfold followedBy
  cases first cs with
  | none => simp
  | some a =>
      cases hsecond : second (cs.drop a) with
      | none => simp [hsecond]
      | some b => simp [hsecond]

/-- What two spellings in a row end in is what the second ends in. -/
theorem getLast_take_add {cs : List Char} {a b : Nat} {last : Char}
    (h : ((cs.drop a).take b).getLast? = some last) : (cs.take (a + b)).getLast? = some last := by
  rw [List.take_add, List.getLast?_append, h, Option.some_or]

section Sequence

variable {first second : List Char → Option Nat}

theorem Piece.followedBy_cut (hfirst : Piece first) (hsecond : Prefixed second) :
    Prefixed (followedBy first second) where
  pos h := by
    obtain ⟨a, b, ha, _, rfl⟩ := followedBy_eq_some.1 h
    have hpos := hfirst.pos ha
    omega
  le_length h := by
    obtain ⟨a, b, ha, hb, rfl⟩ := followedBy_eq_some.1 h
    have hle := hsecond.le_length hb
    have hle' := hfirst.le_length ha
    rw [List.length_drop] at hle
    omega
  cut := by
    intro front back n h hle
    obtain ⟨a, b, ha, hb, rfl⟩ := followedBy_eq_some.1 h
    have hfront : a ≤ front.length := by omega
    rw [List.drop_append_of_le_length hfront] at hb
    refine followedBy_eq_some.2 ⟨a, b, hfirst.cut ha hfront, hsecond.cut hb ?_, rfl⟩
    rw [List.length_drop]
    omega

/-- The first of two spellings in a row ends short of the end of the text. -/
theorem Piece.lt_of_followedBy (hfirst : Piece first) (hsecond : Prefixed second)
    {cs : List Char} {a b : Nat} (ha : first cs = some a) (hb : second (cs.drop a) = some b) :
    a < cs.length := by
  have hle := hfirst.le_length ha
  have hpos := hsecond.pos hb
  have hrest := hsecond.le_length hb
  rw [List.length_drop] at hrest
  omega

theorem Piece.followedBy (hfirst : Piece first) (hsecond : Piece second) :
    Piece (followedBy first second) where
  toPrefixed := hfirst.followedBy_cut hsecond.toPrefixed
  firm := by
    intro front back n h hlt
    obtain ⟨a, b, ha, hb, rfl⟩ := followedBy_eq_some.1 h
    have hafront : a < front.length := by omega
    refine followedBy_eq_some.2 ⟨a, b, hfirst.firm ha hafront, ?_, rfl⟩
    rw [List.drop_append_of_le_length (Nat.le_of_lt hafront)]
    apply hsecond.firm hb
    rw [List.length_drop]
    omega
  noMark := by
    intro cs n h
    obtain ⟨a, b, ha, hb, rfl⟩ := followedBy_eq_some.1 h
    rw [List.take_add, List.mem_append]
    rintro (hmem | hmem)
    · exact hfirst.noMark ha hmem
    · exact hsecond.noMark hb hmem

theorem Piece.followedBy_word (hfirst : Piece first) (hsecond : WordPiece second) :
    WordPiece (Recognise.followedBy first second) where
  toPiece := hfirst.followedBy hsecond.toPiece
  extend := by
    intro front back h hback
    obtain ⟨a, b, ha, hb, hlength⟩ := followedBy_eq_some.1 h
    have hafront := hfirst.lt_of_followedBy hsecond.toPrefixed ha hb
    refine followedBy_eq_some.2 ⟨a, b, hfirst.firm ha hafront, ?_, hlength⟩
    have hrest : b = (front.drop a).length := by
      rw [List.length_drop]
      omega
    rw [List.drop_append_of_le_length (Nat.le_of_lt hafront), hrest]
    exact hsecond.extend (hrest ▸ hb) hback
  wordEnd := by
    intro cs n h
    obtain ⟨a, b, _, hb, rfl⟩ := followedBy_eq_some.1 h
    obtain ⟨last, hlast, hword⟩ := hsecond.wordEnd hb
    exact ⟨last, getLast_take_add hlast, hword⟩

theorem Piece.followedBy_wordToken (hfirst : Piece first) (hsecond : WordToken second) :
    WordToken (Recognise.followedBy first second) where
  toWordPiece := hfirst.followedBy_word hsecond.toWordPiece
  boundary := by
    intro cs n h
    obtain ⟨a, b, _, hb, rfl⟩ := followedBy_eq_some.1 h
    have hbound := hsecond.boundary hb
    rwa [List.drop_drop] at hbound

theorem Piece.followedBy_fixed (hfirst : Piece first) (hsecond : FixedToken second) :
    FixedToken (Recognise.followedBy first second) where
  toPrefixed := hfirst.followedBy_cut hsecond.toPrefixed
  fixed := by
    intro front back n h
    obtain ⟨a, b, ha, hb, rfl⟩ := followedBy_eq_some.1 h
    have hafront := hfirst.lt_of_followedBy hsecond.toPrefixed ha hb
    refine followedBy_eq_some.2 ⟨a, b, hfirst.firm ha hafront, ?_, rfl⟩
    rw [List.drop_append_of_le_length (Nat.le_of_lt hafront)]
    exact hsecond.fixed hb
  markEnd := by
    intro cs n h
    obtain ⟨a, b, _, hb, rfl⟩ := followedBy_eq_some.1 h
    obtain ⟨last, hlast, hmark⟩ := hsecond.markEnd hb
    exact ⟨last, getLast_take_add hlast, hmark⟩

end Sequence

theorem bounded_eq_some {spelling : List Char → Option Nat} {cs : List Char} {n : Nat} :
    bounded spelling cs = some n ↔ spelling cs = some n ∧ atBoundary (cs.drop n) = true := by
  unfold bounded
  cases spelling cs with
  | none => simp
  | some m =>
      simp only [Option.ite_none_right_eq_some, Option.some.injEq]
      constructor
      · rintro ⟨hbound, rfl⟩
        exact ⟨rfl, hbound⟩
      · rintro ⟨rfl, hbound⟩
        exact ⟨hbound, rfl⟩

theorem WordPiece.bounded {spelling : List Char → Option Nat} (h : WordPiece spelling) :
    WordToken (bounded spelling) where
  pos hread := h.pos (bounded_eq_some.1 hread).1
  le_length hread := h.le_length (bounded_eq_some.1 hread).1
  cut := by
    intro front back n hread hle
    obtain ⟨hn, hbound⟩ := bounded_eq_some.1 hread
    rw [List.drop_append_of_le_length hle] at hbound
    exact bounded_eq_some.2 ⟨h.cut hn hle, atBoundary_of_append hbound⟩
  firm := by
    intro front back n hread hlt
    obtain ⟨hn, hbound⟩ := bounded_eq_some.1 hread
    refine bounded_eq_some.2 ⟨h.firm hn hlt, ?_⟩
    rw [List.drop_append_of_le_length (Nat.le_of_lt hlt)]
    refine atBoundary_append ?_ hbound
    simpa using hlt
  noMark hread := h.noMark (bounded_eq_some.1 hread).1
  extend := by
    intro front back hread hback
    refine bounded_eq_some.2 ⟨h.extend (bounded_eq_some.1 hread).1 hback, ?_⟩
    rwa [List.drop_left]
  wordEnd hread := h.wordEnd (bounded_eq_some.1 hread).1
  boundary hread := (bounded_eq_some.1 hread).2

theorem firstOf_cons (choice : List Char → Option Nat) (others : List (List Char → Option Nat))
    (cs : List Char) : firstOf (choice :: others) cs = (choice cs).or (firstOf others cs) := by
  unfold firstOf
  rw [List.findSome?_cons]
  cases choice cs <;> rfl

theorem stable_none : Stable (firstOf []) where
  pos h := by simp [firstOf] at h
  le_length h := by simp [firstOf] at h
  keep _ h := by simp [firstOf] at h
  reflect _ h := by simp [firstOf] at h
  clean h := by simp [firstOf] at h
  solid h := by simp [firstOf] at h

/-- The first of several choices answers, or the choices behind it do. -/
theorem firstOf_cons_eq_some {choice : List Char → Option Nat}
    {others : List (List Char → Option Nat)} {cs : List Char} {n : Nat}
    (h : firstOf (choice :: others) cs = some n) :
    choice cs = some n ∨ choice cs = none ∧ firstOf others cs = some n := by
  rw [firstOf_cons] at h
  cases hchoice : choice cs with
  | some m =>
      rw [hchoice, Option.some_or] at h
      exact .inl h
  | none =>
      rw [hchoice, Option.none_or] at h
      exact .inr ⟨rfl, h⟩

/-- A clean cut disturbs no ordered choice: a choice that did not fit still does not, so the same
choice is taken. -/
theorem Stable.orElse {choice : List Char → Option Nat} {others : List (List Char → Option Nat)}
    (hchoice : Stable choice) (hothers : Stable (firstOf others)) :
    Stable (firstOf (choice :: others)) where
  pos h := (firstOf_cons_eq_some h).elim hchoice.pos fun h => hothers.pos h.2
  le_length h := (firstOf_cons_eq_some h).elim hchoice.le_length fun h => hothers.le_length h.2
  keep := by
    intro front back n hclean h hle
    rw [firstOf_cons]
    rcases firstOf_cons_eq_some h with hread | ⟨hnone, hread⟩
    · rw [hchoice.keep hclean hread hle, Option.some_or]
    · have hfront : choice front = none := by
        cases hsome : choice front with
        | none => rfl
        | some m =>
            have hreflect := hchoice.reflect hclean (by simp [hsome])
            simp [hnone] at hreflect
      rw [hfront, Option.none_or]
      exact hothers.keep hclean hread hle
  reflect := by
    intro front back hclean h
    rw [firstOf_cons, Option.isSome_or, Bool.or_eq_true] at h ⊢
    exact h.imp (hchoice.reflect hclean) (hothers.reflect hclean)
  clean h := (firstOf_cons_eq_some h).elim hchoice.clean fun h => hothers.clean h.2
  solid h := (firstOf_cons_eq_some h).elim hchoice.solid fun h => hothers.solid h.2

theorem stable_firstOf {choices : List (List Char → Option Nat)}
    (h : ∀ choice ∈ choices, Stable choice) : Stable (firstOf choices) := by
  induction choices with
  | nil => exact stable_none
  | cons choice others ih =>
      obtain ⟨hchoice, hothers⟩ := List.forall_mem_cons.1 h
      exact hchoice.orElse (ih hothers)

/-! ### Names, strings, blanks and plain text -/

theorem nameAfter_eq_some {mark : Char} {continues : Char → Bool} {cs : List Char} {n : Nat} :
    nameAfter mark continues cs = some n ↔
      ∃ c rest, cs = mark :: c :: rest ∧ isNameStart c = true ∧ 2 + runLength continues rest = n := by
  constructor
  · intro h
    match cs, h with
    | m :: c :: rest, h =>
        simp only [nameAfter, Option.ite_none_right_eq_some, Bool.and_eq_true, beq_iff_eq,
          Option.some.injEq] at h
        obtain ⟨⟨rfl, hstart⟩, hlength⟩ := h
        exact ⟨c, rest, rfl, hstart, hlength⟩
  · rintro ⟨c, rest, rfl, hstart, rfl⟩
    simp [nameAfter, hstart]

theorem take_name (mark c : Char) (continues : Char → Bool) (rest : List Char) :
    (mark :: c :: rest).take (2 + runLength continues rest) =
      mark :: c :: rest.takeWhile continues := by
  rw [Nat.add_comm, List.take_succ_cons, List.take_succ_cons, take_runLength]

theorem prefixed_nameAfter (mark : Char) (continues : Char → Bool) :
    Prefixed (nameAfter mark continues) where
  pos h := by
    obtain ⟨c, rest, _, _, rfl⟩ := nameAfter_eq_some.1 h
    omega
  le_length h := by
    obtain ⟨c, rest, rfl, _, rfl⟩ := nameAfter_eq_some.1 h
    have hle := runLength_le continues rest
    simp only [List.length_cons]
    omega
  cut := by
    intro front back n h hle
    obtain ⟨c, rest, heq, hstart, rfl⟩ := nameAfter_eq_some.1 h
    rcases front with _ | ⟨m, _ | ⟨d, front⟩⟩
    · simp only [List.length_nil] at hle
      omega
    · simp only [List.length_cons, List.length_nil] at hle
      omega
    · simp only [List.cons_append, List.cons.injEq] at heq
      obtain ⟨rfl, rfl, rfl⟩ := heq
      have hrest : runLength continues (front ++ back) ≤ front.length := by
        simp only [List.length_cons] at hle
        omega
      exact nameAfter_eq_some.2 ⟨d, front, rfl, hstart, by rw [runLength_of_append hrest]⟩

theorem piece_nameAfter {mark : Char} {continues : Char → Bool} (hmark : mark ≠ '$')
    (hcontinues : continues '$' = false) : Piece (nameAfter mark continues) where
  toPrefixed := prefixed_nameAfter mark continues
  firm := by
    intro front back n h hlt
    obtain ⟨c, rest, rfl, hstart, rfl⟩ := nameAfter_eq_some.1 h
    refine nameAfter_eq_some.2 ⟨c, rest ++ back, rfl, hstart, ?_⟩
    rw [runLength_append]
    simp only [List.length_cons] at hlt
    omega
  noMark := by
    intro cs n h
    obtain ⟨c, rest, rfl, hstart, rfl⟩ := nameAfter_eq_some.1 h
    rw [take_name, List.mem_cons, List.mem_cons]
    rintro (rfl | rfl | hmem)
    · exact hmark rfl
    · simp [isNameStart] at hstart
    · have haccept := List.all_eq_true.1 List.all_takeWhile _ hmem
      rw [hcontinues] at haccept
      exact Bool.false_ne_true haccept

theorem stable_variable : Stable (nameAfter '$' isNameRest) where
  pos h := (prefixed_nameAfter _ _).pos h
  le_length h := (prefixed_nameAfter _ _).le_length h
  keep _ h hle := (prefixed_nameAfter _ _).cut h hle
  reflect := by
    intro front back _ h
    obtain ⟨n, hn⟩ := Option.isSome_iff_exists.1 h
    obtain ⟨c, rest, rfl, hstart, _⟩ := nameAfter_eq_some.1 hn
    exact Option.isSome_iff_exists.2 ⟨_, nameAfter_eq_some.2 ⟨c, rest ++ back, rfl, hstart, rfl⟩⟩
  clean := by
    intro cs n h last next _ _ _ _
    obtain ⟨c, rest, rfl, _, rfl⟩ := nameAfter_eq_some.1 h
    rw [take_name]
    exact List.mem_cons_self
  solid := by
    intro cs n h
    obtain ⟨c, rest, rfl, hstart, rfl⟩ := nameAfter_eq_some.1 h
    -- the name is not empty, and all its characters are word characters
    obtain ⟨last, hlast, hname⟩ :=
      getLast_cons_takeWhile isNameRest rest (isNameRest_of_isNameStart hstart)
    refine .inr ⟨last, ?_, not_isBlank_of_isWord (isWord_of_isNameRest hname)⟩
    rw [take_name, List.getLast?_cons_cons]
    exact hlast

theorem fixedToken_callHead : FixedToken callHead :=
  (piece_nameAfter (by decide) (by decide)).followedBy_fixed
    (fixedToken_exactly (by decide))

theorem closingQuote_other {c : Char} {cs : List Char} (hquote : c ≠ '"') (hescape : c ≠ '\\') :
    closingQuote (c :: cs) = (closingQuote cs).map (· + 1) := by
  rw [closingQuote]
  · exact hquote
  · exact fun h _ => hescape h
  · exact fun _ _ h _ => hescape h

/-- The last case of looking for the closing quote has no backslash in front. -/
theorem ne_escape {c : Char} {cs : List Char} (hend : c = '\\' → cs = [] → False)
    (hmore : ∀ d ds, c = '\\' → cs = d :: ds → False) : c ≠ '\\' := by
  rintro rfl
  cases cs with
  | nil => exact hend rfl rfl
  | cons d ds => exact hmore d ds rfl rfl

/-- What completes a string is nonempty and ends in a quote. -/
theorem closingQuote_spec {cs : List Char} {n : Nat} (h : closingQuote cs = some n) :
    0 < n ∧ n ≤ cs.length ∧ (cs.take n).getLast? = some '"' := by
  fun_induction closingQuote cs generalizing n with
  | case1 => simp at h
  | case2 tail =>
      obtain rfl : 1 = n := by simpa using h
      simp
  | case3 => simp at h
  | case4 cs => simp at h
  | case5 c cs hc ih =>
      obtain ⟨m, hm, rfl⟩ := Option.map_eq_some_iff.1 h
      obtain ⟨hpos, hle, hlast⟩ := ih hm
      refine ⟨by omega, by simpa using hle, ?_⟩
      simp [List.take_succ_cons, List.getLast?_cons, hlast]
  | case6 c cs hquote hescape hescape' ih =>
      obtain ⟨m, hm, rfl⟩ := Option.map_eq_some_iff.1 h
      obtain ⟨hpos, hle, hlast⟩ := ih hm
      refine ⟨by omega, by simpa using hle, ?_⟩
      simp [List.take_succ_cons, List.getLast?_cons, hlast]

/-- A closing quote is found whatever follows. -/
theorem closingQuote_fixed {front back : List Char} {n : Nat} (h : closingQuote front = some n) :
    closingQuote (front ++ back) = some n := by
  fun_induction closingQuote front generalizing n with
  | case1 => simp at h
  | case2 tail => simpa [closingQuote] using h
  | case3 => simp at h
  | case4 cs => simp at h
  | case5 c cs hc ih =>
      obtain ⟨m, hm, rfl⟩ := Option.map_eq_some_iff.1 h
      simp [closingQuote, hc, ih hm]
  | case6 c cs hquote hescape hescape' ih =>
      obtain ⟨m, hm, rfl⟩ := Option.map_eq_some_iff.1 h
      have hother := ne_escape hescape hescape'
      simp [closingQuote_other hquote hother, ih hm]

/-- A closing quote before a cut is found without what follows. -/
theorem closingQuote_cut {front back : List Char} {n : Nat}
    (h : closingQuote (front ++ back) = some n) (hle : n ≤ front.length) :
    closingQuote front = some n := by
  fun_induction closingQuote front generalizing n with
  | case1 =>
      have hpos := (closingQuote_spec h).1
      simp only [List.length_nil] at hle
      omega
  | case2 tail => simpa [closingQuote] using h
  | case3 =>
      -- the escaped character stands behind the cut
      cases back with
      | nil => simp [closingQuote] at h
      | cons c cs =>
          simp only [List.cons_append, List.nil_append, closingQuote] at h
          split at h
          · simp at h
          · obtain ⟨m, hm, rfl⟩ := Option.map_eq_some_iff.1 h
            simp only [List.length_cons, List.length_nil] at hle
            omega
  | case4 cs => simp [closingQuote] at h
  | case5 c cs hc ih =>
      simp only [List.cons_append, closingQuote, hc, if_false] at h
      obtain ⟨m, hm, rfl⟩ := Option.map_eq_some_iff.1 h
      simp [ih hm (by simpa using hle)]
  | case6 c cs hquote hescape hescape' ih =>
      have hother := ne_escape hescape hescape'
      rw [List.cons_append, closingQuote_other hquote hother] at h
      obtain ⟨m, hm, rfl⟩ := Option.map_eq_some_iff.1 h
      simp [ih hm (by simpa using hle)]

theorem string_eq_some {cs : List Char} {n : Nat} :
    string cs = some n ↔ ∃ rest m, cs = '"' :: rest ∧ closingQuote rest = some m ∧ m + 1 = n := by
  constructor
  · intro h
    unfold string at h
    split at h
    · next rest =>
      obtain ⟨m, hm, rfl⟩ := Option.map_eq_some_iff.1 h
      exact ⟨rest, m, rfl, hm, rfl⟩
    · simp at h
  · rintro ⟨rest, m, rfl, hm, rfl⟩
    simp [string, hm]

theorem fixedToken_string : FixedToken string where
  pos h := by
    obtain ⟨rest, m, _, _, rfl⟩ := string_eq_some.1 h
    omega
  le_length h := by
    obtain ⟨rest, m, rfl, hm, rfl⟩ := string_eq_some.1 h
    have hle := (closingQuote_spec hm).2.1
    simpa using hle
  cut := by
    intro front back n h hle
    obtain ⟨rest, m, heq, hm, rfl⟩ := string_eq_some.1 h
    cases front with
    | nil => simp at hle
    | cons c front =>
        simp only [List.cons_append, List.cons.injEq] at heq
        obtain ⟨rfl, rfl⟩ := heq
        exact string_eq_some.2 ⟨front, m, rfl, closingQuote_cut hm (by simpa using hle), rfl⟩
  fixed := by
    intro front back n h
    obtain ⟨rest, m, rfl, hm, rfl⟩ := string_eq_some.1 h
    exact string_eq_some.2 ⟨rest ++ back, m, rfl, closingQuote_fixed hm, rfl⟩
  markEnd := by
    intro cs n h
    obtain ⟨rest, m, rfl, hm, rfl⟩ := string_eq_some.1 h
    refine ⟨'"', ?_, by decide, by decide⟩
    simp [List.take_succ_cons, List.getLast?_cons, (closingQuote_spec hm).2.2]

theorem stable_blanks : Stable (run isBlank) where
  pos h := (run_eq_some.1 h).2
  le_length h := (piece_run (by decide)).le_length h
  keep _ h hle := (piece_run (by decide)).cut h hle
  reflect := by
    intro front back _ h
    obtain ⟨n, hn⟩ := Option.isSome_iff_exists.1 h
    obtain ⟨c, hc, hblank⟩ := head_of_run hn
    cases front with
    | nil => simp at hc
    | cons d cs =>
        obtain rfl : d = c := by simpa using hc
        simp [run, runLength, hblank]
  clean := by
    intro cs n h
    obtain ⟨rfl, hpos⟩ := run_eq_some.1 h
    obtain ⟨last, hlast, hblank⟩ := getLast_takeWhile hpos
    rw [take_runLength]
    exact cleanCut_of_not_isWord hlast (not_isWord_of_isBlank hblank)
  solid h := .inl (head_of_run h)

theorem stable_text : Stable text where
  pos := by
    intro cs n h
    cases cs with
    | nil => simp [text] at h
    | cons c cs =>
        simp only [text, Option.some.injEq] at h
        split at h <;> omega
  le_length := by
    intro cs n h
    cases cs with
    | nil => simp [text] at h
    | cons c cs =>
        have hle := runLength_le (fun d => !endsWord d) cs
        simp only [text, Option.some.injEq] at h
        rw [List.length_cons]
        split at h <;> omega
  keep := by
    intro front back n _ h hle
    cases front with
    | nil =>
        cases back with
        | nil => simp [text] at h
        | cons c cs =>
            simp only [List.nil_append, text, Option.some.injEq, List.length_nil] at h hle
            split at h <;> omega
    | cons c front =>
        simp only [List.cons_append, text, Option.some.injEq, List.length_cons] at h hle ⊢
        split
        · next hends => rwa [if_pos hends] at h
        · next hends =>
          rw [if_neg hends] at h
          have hrun : runLength (fun d => !endsWord d) (front ++ back) ≤ front.length := by omega
          rw [runLength_of_append hrun]
          exact h
  reflect := by
    intro front back _ h
    cases front with
    | nil => simp [text] at h
    | cons c front => simp [text]
  clean := by
    intro cs n h
    cases cs with
    | nil => simp [text] at h
    | cons c cs =>
        simp only [text, Option.some.injEq] at h
        split at h
        · next hends =>
          subst h
          exact cleanCut_of_not_isWord (by simp) (not_isWord_of_endsWord hends)
        · -- the word stops in front of a character that ends words
          subst h
          apply cleanCut_of_atBoundary
          rw [Nat.add_comm, List.drop_succ_cons]
          cases hrest : cs.drop (runLength (fun d => !endsWord d) cs) with
          | nil => rfl
          | cons next rest =>
              have hends := not_accept_of_drop_runLength hrest
              rw [Bool.not_eq_false'] at hends
              simp [atBoundary, not_isWord_of_endsWord hends]
  solid := by
    intro cs n h
    cases cs with
    | nil => simp [text] at h
    | cons c cs =>
        cases hblank : isBlank c with
        | true => exact .inl ⟨c, rfl, hblank⟩
        | false =>
            simp only [text, Option.some.injEq] at h
            split at h
            · subst h
              exact .inr ⟨c, by simp, hblank⟩
            · next hends =>
              subst h
              obtain ⟨last, hlast, hword⟩ :=
                getLast_cons_takeWhile (fun d => !endsWord d) cs (by simpa using hends)
              rw [Bool.not_eq_true'] at hword
              refine .inr ⟨last, ?_, (Bool.or_eq_false_iff.1 hword).1⟩
              rw [Nat.add_comm, List.take_succ_cons, take_runLength]
              exact hlast

end PassageMarkup.Recognise
