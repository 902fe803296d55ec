/-
Module: PassageMarkup.Proofs.Spacing
Layer: Proofs
Purpose: The leading token of a text does not depend on how much blank there is behind it, or of which sort.
  Texts are alike if they differ in their blanks only, and have some in the same places, the end apart. A
  recogniser that reads no blank cannot look past one, so it answers the same for texts that are alike; a
  comparison in several words looks past blanks, but only for the word behind them. Strings are left out:
  a quote looks for its partner through all blanks, so it must be closed within the token.
Imports: Proofs.Alphabets, Proofs.Leading
Main exports: Alike, Alike.split, Spaced, Kind.spaced, leading?_of_alike
-/
import PassageMarkup.Proofs.Alphabets
import PassageMarkup.Proofs.Leading

namespace PassageMarkup

open Text Recognise

/-! ### Texts with the same words -/

/-- Two texts that differ in their blanks only. Where one has blanks the other has some too, except at
the end. -/
inductive Alike : List Char → List Char → Prop where
  | ends {gap other : List Char} (hgap : ∀ c ∈ gap, isBlank c = true)
      (hother : ∀ c ∈ other, isBlank c = true) : Alike gap other
  | char {c : Char} {cs ds : List Char} (hrest : Alike cs ds) : Alike (c :: cs) (c :: ds)
  | gap {gap other cs ds : List Char} (hgap : ∀ c ∈ gap, isBlank c = true) (hne : gap ≠ [])
      (hother : ∀ c ∈ other, isBlank c = true) (hother_ne : other ≠ []) (hrest : Alike cs ds) :
      Alike (gap ++ cs) (other ++ ds)

/-- Whether a text goes on with a blank, or ends. -/
def pauses (cs : List Char) : Bool :=
  cs.head?.all isBlank

theorem pauses_of_blank {gap : List Char} (h : ∀ c ∈ gap, isBlank c = true) : pauses gap = true := by
  cases gap with
  | nil => rfl
  | cons c gap => exact h c List.mem_cons_self

theorem pauses_append {gap : List Char} (h : ∀ c ∈ gap, isBlank c = true) (hne : gap ≠ [])
    (rest : List Char) : pauses (gap ++ rest) = true := by
  cases gap with
  | nil => exact absurd rfl hne
  | cons c gap => exact h c List.mem_cons_self

/-- No word goes on past a pause. -/
theorem atBoundary_of_pauses {cs : List Char} (h : pauses cs = true) : atBoundary cs = true := by
  cases cs with
  | nil => rfl
  | cons c cs =>
      have hblank : isBlank c = true := h
      simp [atBoundary, not_isWord_of_isBlank hblank]

theorem Alike.symm {cs ds : List Char} (h : Alike cs ds) : Alike ds cs := by
  induction h with
  | ends hgap hother => exact .ends hother hgap
  | char _ ih => exact .char ih
  | gap hgap hne hother hother_ne _ ih => exact .gap hother hother_ne hgap hne ih

/-- The same text in front keeps texts alike. -/
theorem Alike.append {cs ds : List Char} (h : Alike cs ds) (text : List Char) :
    Alike (text ++ cs) (text ++ ds) := by
  induction text with
  | nil => exact h
  | cons c text ih => exact .char ih

/-- Texts that are alike have the same word in front, up to a pause in both. -/
theorem Alike.split {cs ds : List Char} (h : Alike cs ds) :
    ∃ word rest other, cs = word ++ rest ∧ ds = word ++ other ∧ (∀ c ∈ word, isBlank c = false) ∧
      pauses rest = true ∧ pauses other = true ∧ Alike rest other := by
  induction h with
  | @ends gap other hgap hother =>
      exact ⟨[], gap, other, rfl, rfl, by simp, pauses_of_blank hgap, pauses_of_blank hother,
        .ends hgap hother⟩
  | @char c cs ds hrest ih =>
      cases hblank : isBlank c with
      | true => exact ⟨[], c :: cs, c :: ds, rfl, rfl, by simp, hblank, hblank, .char hrest⟩
      | false =>
          rcases ih with ⟨word, rest, other, rfl, rfl, hword, hpauses, hpauses', halike⟩
          refine ⟨c :: word, rest, other, rfl, rfl, ?_, hpauses, hpauses', halike⟩
          exact List.forall_mem_cons.2 ⟨hblank, hword⟩
  | @gap gap other cs ds hgap hne hother hother_ne hrest _ =>
      exact ⟨[], gap ++ cs, other ++ ds, rfl, rfl, by simp, pauses_append hgap hne cs,
        pauses_append hother hother_ne ds, .gap hgap hne hother hother_ne hrest⟩

/-- A character that is no blank stands in front of both texts or of neither. -/
theorem Alike.cons {c : Char} {cs ds : List Char} (h : Alike (c :: cs) ds) (hc : isBlank c = false) :
    ∃ rest, ds = c :: rest ∧ Alike cs rest := by
  generalize hcs : c :: cs = es at h
  cases h with
  | ends hgap _ =>
      have hblank := hgap c (hcs ▸ List.mem_cons_self)
      rw [hc] at hblank
      cases hblank
  | char hrest =>
      cases hcs
      exact ⟨_, rfl, hrest⟩
  | @gap gap _ _ _ hgap hne _ _ _ =>
      cases gap with
      | nil => exact absurd rfl hne
      | cons d gap =>
          cases hcs
          have hblank := hgap c List.mem_cons_self
          rw [hc] at hblank
          cases hblank

/-- Behind the same word texts that are alike stay alike. -/
theorem Alike.behind {word rest ds : List Char} (h : Alike (word ++ rest) ds)
    (hword : ∀ c ∈ word, isBlank c = false) : ∃ other, ds = word ++ other ∧ Alike rest other := by
  induction word generalizing ds with
  | nil => exact ⟨ds, rfl, h⟩
  | cons c word ih =>
      rcases List.forall_mem_cons.1 hword with ⟨hc, hrest⟩
      rcases h.cons hc with ⟨tail, rfl, htail⟩
      rcases ih htail hrest with ⟨other, rfl, hother⟩
      exact ⟨other, rfl, hother⟩

theorem dropWhile_blank_append {gap : List Char} (h : ∀ c ∈ gap, isBlank c = true)
    (rest : List Char) : (gap ++ rest).dropWhile isBlank = rest.dropWhile isBlank :=
  List.dropWhile_append_of_pos h

/-- Behind the blanks in front, texts that are alike stay alike. -/
theorem Alike.dropBlanks {cs ds : List Char} (h : Alike cs ds) :
    Alike (cs.dropWhile isBlank) (ds.dropWhile isBlank) := by
  induction h with
  | @ends gap other hgap hother =>
      rw [← List.append_nil gap, ← List.append_nil other, dropWhile_blank_append hgap,
        dropWhile_blank_append hother]
      exact .ends (by simp) (by simp)
  | @char c cs ds hrest ih =>
      cases hblank : isBlank c with
      | true => simpa [hblank] using ih
      | false => simpa [hblank] using .char hrest
  | gap hgap _ hother _ _ ih =>
      rwa [dropWhile_blank_append hgap, dropWhile_blank_append hother]

/-- Texts that are alike both start with a word character, or neither does. -/
theorem Alike.atBoundary {cs ds : List Char} (h : Alike cs ds) : atBoundary cs = atBoundary ds := by
  rcases h.split with ⟨word, rest, other, rfl, rfl, _, hpauses, hpauses', _⟩
  cases word with
  | nil => rw [List.nil_append, List.nil_append, atBoundary_of_pauses hpauses,
      atBoundary_of_pauses hpauses']
  | cons c word => rfl

/-! ### Recognisers and blanks -/

namespace Recognise

/-- A recogniser that asks of the blanks only where there are some. It fits texts that are alike or none
of them, and what it takes it takes whatever alike follows. -/
structure Spaced (read : List Char → Option Nat) : Prop where
  fits : ∀ {cs ds}, Alike cs ds → (read cs).isSome = true → (read ds).isSome = true
  takes : ∀ {text rest other}, Alike rest other → read (text ++ rest) = some text.length →
    read (text ++ other) = some text.length

theorem Spaced.none {read : List Char → Option Nat} (h : Spaced read) {cs ds : List Char}
    (halike : Alike cs ds) (hnone : read cs = none) : read ds = none := by
  cases hread : read ds with
  | none => rfl
  | some n =>
      have hsome := h.fits halike.symm (Option.isSome_iff_exists.2 ⟨n, hread⟩)
      rw [hnone] at hsome
      cases hsome

/-- A recogniser that reads no blank reads the same in texts that are alike: it stays within the word in
front. -/
theorem read_of_alike {accept : Char → Bool} {read : List Char → Option Nat} (hstable : Stable read)
    (hwithin : Within accept read) (hblank : ∀ {c}, isBlank c = true → accept c = false)
    {cs ds : List Char} (h : Alike cs ds) {n : Nat} (hread : read cs = some n) : read ds = some n := by
  rcases h.split with ⟨word, rest, other, rfl, rfl, _, hpauses, hpauses', _⟩
  have hle : ∀ {behind m}, pauses behind = true → read (word ++ behind) = some m →
      m ≤ word.length := by
    intro behind m hpause hm
    rcases Nat.lt_or_ge word.length m with hlt | hge
    · exfalso
      rcases behind with _ | ⟨c, behind⟩
      · have hlength := hstable.le_length hm
        rw [List.append_nil] at hlength
        omega
      -- the blank behind the word would be read
      have hmem : c ∈ (word ++ c :: behind).take m := by
        rw [List.take_append, List.mem_append]
        right
        rw [List.take_cons (by omega)]
        exact List.mem_cons_self
      have haccept := hwithin.chars hm c hmem
      rw [hblank hpause] at haccept
      cases haccept
    · exact hge
  have hclean : ∀ {behind}, pauses behind = true → CleanCut word behind := fun hpause =>
    cleanCut_of_atBoundary (atBoundary_of_pauses hpause)
  have hword := hstable.keep (hclean hpauses) hread (hle hpauses hread)
  have hsome : (read (word ++ other)).isSome = true :=
    hstable.reflect (hclean hpauses') (by rw [hword]; rfl)
  rcases Option.isSome_iff_exists.1 hsome with ⟨m, hm⟩
  have hsame := hstable.keep (hclean hpauses') hm (hle hpauses' hm)
  rw [hword] at hsame
  rw [hm, hsame]

theorem spaced_of_within {accept : Char → Bool} {read : List Char → Option Nat}
    (hstable : Stable read) (hwithin : Within accept read)
    (hblank : ∀ {c}, isBlank c = true → accept c = false) : Spaced read where
  fits := by
    intro cs ds h hsome
    rcases Option.isSome_iff_exists.1 hsome with ⟨n, hn⟩
    exact Option.isSome_iff_exists.2 ⟨n, read_of_alike hstable hwithin hblank h hn⟩
  takes h hread := read_of_alike hstable hwithin hblank (h.append _) hread

theorem spaced_firstOf {choices : List (List Char → Option Nat)}
    (h : ∀ choice ∈ choices, Spaced choice) : Spaced (firstOf choices) := by
  induction choices with
  | nil =>
      refine ⟨?_, ?_⟩
      · intro cs ds _ hsome
        cases hsome
      · intro text rest other _ hread
        cases hread
  | cons choice others ih =>
      rcases List.forall_mem_cons.1 h with ⟨hchoice, hothers⟩
      refine ⟨?_, ?_⟩
      · intro cs ds halike hsome
        rw [firstOf_cons, Option.isSome_or, Bool.or_eq_true] at hsome ⊢
        exact hsome.imp (hchoice.fits halike) ((ih hothers).fits halike)
      · intro text rest other halike hread
        rw [firstOf_cons]
        rcases firstOf_cons_eq_some hread with hfirst | ⟨hnone, hrest⟩
        · rw [hchoice.takes halike hfirst, Option.some_or]
        · rw [hchoice.none (halike.append text) hnone, Option.none_or,
            (ih hothers).takes halike hrest]

/-- A token that ends at a word boundary is taken whatever alike follows. -/
theorem WordToken.takes {read : List Char → Option Nat} (h : WordToken read)
    {text rest other : List Char} (halike : Alike rest other)
    (hread : read (text ++ rest) = some text.length) : read (text ++ other) = some text.length := by
  have hbound := h.boundary hread
  rw [List.drop_left, halike.atBoundary] at hbound
  exact h.extend (h.cut hread (Nat.le_refl _)) hbound

theorem drop_runLength (accept : Char → Bool) (cs : List Char) :
    cs.drop (runLength accept cs) = cs.dropWhile accept := by
  have hparts : cs.takeWhile accept ++ cs.dropWhile accept = cs := List.takeWhile_append_dropWhile
  have hdrop : (cs.takeWhile accept ++ cs.dropWhile accept).drop (cs.takeWhile accept).length =
      cs.dropWhile accept := List.drop_left
  rwa [hparts] at hdrop

/-- Blanks and more fit if there is a blank, and behind all blanks there is the rest. -/
theorem isSome_afterBlanks {read : List Char → Option Nat} {cs : List Char} :
    (followedBy (run isBlank) read cs).isSome = true ↔
      cs.head?.any isBlank = true ∧ (read (cs.dropWhile isBlank)).isSome = true := by
  constructor
  · intro h
    rcases Option.isSome_iff_exists.1 h with ⟨n, hn⟩
    rcases followedBy_eq_some.1 hn with ⟨a, b, ha, hb, _⟩
    rcases head_of_run ha with ⟨c, hc, hblank⟩
    rw [← (run_eq_some.1 ha).1, drop_runLength] at hb
    exact ⟨by rw [hc]; exact hblank, Option.isSome_iff_exists.2 ⟨b, hb⟩⟩
  · rintro ⟨hhead, hsome⟩
    rcases Option.isSome_iff_exists.1 hsome with ⟨b, hb⟩
    rw [← drop_runLength] at hb
    refine Option.isSome_iff_exists.2 ⟨_, followedBy_eq_some.2 ⟨_, b, run_eq_some.2 ⟨rfl, ?_⟩, hb, rfl⟩⟩
    cases cs with
    | nil => cases hhead
    | cons c cs =>
        have hblank : isBlank c = true := hhead
        simp [runLength, hblank]

/-- A word, blanks, and a token that ends at a word boundary: the blanks may be any. -/
theorem spaced_afterWord {word : List Char} {read : List Char → Option Nat}
    (hword : endsInWord word = true) (hsolid : word.all (fun c => !isBlank c) = true)
    (hread : WordToken read) (h : Spaced read) :
    Spaced (followedBy (exactly word) (followedBy (run isBlank) read)) where
  takes := (wordToken_after hword hread).takes
  fits := by
    intro cs ds halike hsome
    rcases Option.isSome_iff_exists.1 hsome with ⟨n, hn⟩
    rcases followedBy_eq_some.1 hn with ⟨a, b, ha, hb, _⟩
    rcases exactly_eq_some.1 ha with ⟨⟨tail, rfl⟩, rfl⟩
    rw [List.drop_left] at hb
    rcases isSome_afterBlanks.1 (Option.isSome_iff_exists.2 ⟨b, hb⟩) with ⟨hblank, hbehind⟩
    rcases halike.behind (by simpa using hsolid) with ⟨other, rfl, hother⟩
    have hfits := h.fits hother.dropBlanks hbehind
    have hpause : other.head?.any isBlank = true := by
      cases other with
      | nil =>
          rcases Option.isSome_iff_exists.1 hfits with ⟨m, hm⟩
          have hpos := hread.pos hm
          have hle := hread.le_length hm
          simp only [List.dropWhile_nil, List.length_nil] at hle
          omega
      | cons c other =>
          cases hc : isBlank c with
          | true => exact hc
          | false =>
              rcases hother.symm.cons hc with ⟨rest, rfl, _⟩
              rw [List.head?_cons, Option.any_some, hc] at hblank
              cases hblank
    rcases Option.isSome_iff_exists.1 (isSome_afterBlanks.2 ⟨hpause, hfits⟩) with ⟨m, hm⟩
    refine Option.isSome_iff_exists.2 ⟨word.length + m, followedBy_eq_some.2 ⟨word.length, m, ?_, ?_, rfl⟩⟩
    · exact exactly_eq_some.2 ⟨List.prefix_append word other, rfl⟩
    · rwa [List.drop_left]

theorem spaced_exactly {spelling : List Char} (hsign : endsInSign spelling = true)
    (hsolid : spelling.all (fun c => !isBlank c) = true) : Spaced (exactly spelling) :=
  spaced_of_within (stable_exactly hsign) (within_exactly hsolid) fun hblank => by simp [hblank]

theorem spaced_reserved {word : List Char} (hword : endsInWord word = true)
    (hsolid : word.all (fun c => !isBlank c) = true) : Spaced (reserved word) :=
  spaced_of_within (stable_reserved hword) (within_reserved hsolid) fun hblank => by simp [hblank]

theorem spaced_comparison : Spaced comparison := by
  have hisNot : Spaced
      (followedBy (exactly ['i', 's']) (followedBy (run isBlank) (reserved ['n', 'o', 't']))) :=
    spaced_afterWord (by decide) (by decide) (wordToken_reserved (by decide))
      (spaced_reserved (by decide) (by decide))
  have hdoesNot : Spaced (followedBy (exactly ['d', 'o', 'e', 's']) (followedBy (run isBlank)
      (followedBy (exactly ['n', 'o', 't']) (followedBy (run isBlank)
        (reserved ['c', 'o', 'n', 't', 'a', 'i', 'n']))))) := by
    apply spaced_afterWord (by decide) (by decide)
    · exact wordToken_after (by decide) (wordToken_reserved (by decide))
    · exact spaced_afterWord (by decide) (by decide) (wordToken_reserved (by decide))
        (spaced_reserved (by decide) (by decide))
  apply spaced_firstOf
  simp (disch := decide) [spaced_exactly, spaced_reserved, hisNot, hdoesNot]

/-- A run takes just the front of a text if it takes all of the front and nothing behind it. -/
theorem runLength_eq_length_iff {accept : Char → Bool} {front back : List Char} :
    runLength accept (front ++ back) = front.length ↔
      front.all accept = true ∧ back.head?.any accept = false := by
  induction front with
  | nil => cases back <;> simp [runLength, List.takeWhile_cons]
  | cons c front ih =>
      cases hc : accept c with
      | true => simpa [runLength, hc] using ih
      | false => simp [runLength, hc]

/-- A word ends in front of a blank, and in front of any other character that ends words. -/
theorem text_of_alike {text rest other : List Char} (halike : Alike rest other)
    (h : Recognise.text (text ++ rest) = some text.length) (hne : text ≠ []) :
    Recognise.text (text ++ other) = some text.length := by
  have hends : rest.head?.any (fun d => !endsWord d) = false →
      other.head?.any (fun d => !endsWord d) = false := by
    rcases halike.split with ⟨word, rest, other, rfl, rfl, _, _, hpauses, _⟩
    cases word with
    | cons d word => exact id
    | nil =>
        intro _
        cases other with
        | nil => rfl
        | cons d other =>
            have hblank : isBlank d = true := hpauses
            simp [endsWord, hblank]
  cases text with
  | nil => exact absurd rfl hne
  | cons c text =>
      simp only [List.cons_append, Recognise.text, Option.some.injEq, List.length_cons] at h ⊢
      split
      · next hsingle => rwa [if_pos hsingle] at h
      · next hword =>
        rw [if_neg hword, Nat.add_comm, Nat.add_right_cancel_iff, runLength_eq_length_iff] at h
        rw [Nat.add_comm, Nat.add_right_cancel_iff, runLength_eq_length_iff]
        exact ⟨h.1, hends h.2⟩

end Recognise

theorem string_of_ne {c : Char} {cs : List Char} (h : c ≠ '"') :
    Kind.string.recognise (c :: cs) = none := by
  cases hread : Kind.string.recognise (c :: cs) with
  | none => rfl
  | some n =>
      rcases string_eq_some.1 hread with ⟨_, _, hcs, _⟩
      exact absurd (List.cons.inj hcs).1 h

/-- Every kind but white space, strings and plain text asks of the blanks only where there are some. -/
theorem Kind.spaced {kind : Kind} (hspace : kind ≠ .whitespace) (hstring : kind ≠ .string)
    (htext : kind ≠ .text) : Spaced kind.recognise := by
  by_cases hcomparison : kind = .comparison
  · rw [hcomparison]
    exact spaced_comparison
  · exact spaced_of_within kind.stable kind.within
      (kind.alphabet_blank hspace hcomparison hstring htext)

/-- The leading token stays as it is whatever alike follows, if it is a string or holds no quote. -/
theorem leading?_of_alike {text rest other : List Char} {kind : Kind} (halike : Alike rest other)
    (hkind : kind ≠ .whitespace) (hquote : kind ≠ .string → '"' ∉ text)
    (h : leading? (text ++ rest) = some (kind, text.length)) :
    leading? (text ++ other) = some (kind, text.length) := by
  rcases leading?_eq_some_iff.1 h with ⟨before, behind, hall, hread, hnone⟩
  have hne : text ≠ [] := List.length_pos_iff.1 (kind.stable.pos hread)
  refine leading?_eq_some_iff.2 ⟨before, behind, hall, ?_, ?_⟩
  · by_cases hstring : kind = .string
    · subst hstring
      exact fixedToken_string.fixed (fixedToken_string.cut hread (Nat.le_refl _))
    by_cases htext : kind = .text
    · subst htext
      exact text_of_alike halike hread hne
    · exact (Kind.spaced hkind hstring htext).takes halike hread
  · intro earlier hmem
    have hearlier := hnone earlier hmem
    cases text with
    | nil => exact absurd rfl hne
    | cons c text =>
        by_cases hspace : earlier = .whitespace
        · have hblank : isBlank c = false := by
            rw [Bool.eq_false_iff]
            exact fun hblank => hkind ((leading_whitespace_iff h).2 hblank)
          subst hspace
          simp [Kind.recognise, run, runLength, hblank]
        by_cases hstring : earlier = .string
        · subst hstring
          have hstart : c ≠ '"' := by
            rintro rfl
            refine hquote ?_ List.mem_cons_self
            rintro rfl
            rw [hread] at hearlier
            cases hearlier
          exact string_of_ne hstart
        by_cases htext : earlier = .text
        · subst htext
          cases hearlier
        · exact (Kind.spaced hspace hstring htext).none (halike.append _) hearlier

end PassageMarkup
