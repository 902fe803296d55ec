/-
Module: PassageMarkup.Proofs.ViablePrefix
Layer: Proofs
Purpose: Errors of the grammar point at the first impossible token. Every state of reading can still be
  completed to a passage, so the tokens read so far are always the start of one; and a token that is
  refused can start no passage together with the tokens in front of it. Hence reading stops exactly where
  the tokens cease to be the start of a passage, and the error tells whether they were a passage just
  before. The rules of ordered choice come to that error by one way only: items are always taken, tokens
  are left behind them, and the item read once more in front of these fails.
Imports: Proofs.Coverage
Main exports: Viable, FirstImpossible, ClosesNothing, viable_iff, firstImpossible_iff,
  parse_error_at_first_impossible
-/
import PassageMarkup.Proofs.Coverage

namespace PassageMarkup

open Text

/-- Tokens with which some passage starts. -/
def Viable (tokens : List Token) : Prop :=
  ∃ rest, IsPassage (tokens ++ rest)

/-- The place of the first token with which the tokens cease to be the start of a passage. -/
def FirstImpossible (tokens : List Token) (k : Nat) : Prop :=
  k < tokens.length ∧ ¬ Viable (tokens.take (k + 1)) ∧ ∀ i < k, Viable (tokens.take (i + 1))

/-- A closing bracket with which no hook and no link ends that starts within the tokens in front. -/
def ClosesNothing (front : List Token) (token : Token) : Prop :=
  (token.kind = .hookClose ∨ token.kind = .linkClose) ∧
    ∀ before inside, front = before ++ inside →
      ¬ Derives .hook (inside ++ [token]) ∧ ¬ Derives .link (inside ++ [token])

/-- The offset of an error is between two characters of the source, and its fragment is what the source
goes on with there, at most 24 characters of it. -/
def ParseError.Quotes (error : ParseError) (source : String) : Prop :=
  ∃ before behind, source.toList = before ++ behind ∧ error.offset = byteLength before ∧
    error.fragment = String.ofList (behind.take 24)

/-- What an error of the grammar says about the tokens of the source. -/
structure ParseError.Locates (error : ParseError) (source : String) : Prop where
  quotes : error.Quotes source
  /-- Behind a passage the first impossible token is a bracket that closes nothing. -/
  trailing : ∀ k token, FirstImpossible (tokensOf source) k → (tokensOf source)[k]? = some token →
    IsPassage ((tokensOf source).take k) →
      error = .trailingInput token.start (fragmentAt source token.start) ∧
        ClosesNothing ((tokensOf source).take k) token
  /-- Elsewhere it breaks the phrase that is being read. -/
  unexpected : ∀ k token, FirstImpossible (tokensOf source) k → (tokensOf source)[k]? = some token →
    ¬ IsPassage ((tokensOf source).take k) →
      error = .noMatchingRule token.kind.name token.start (fragmentAt source token.start)
  /-- Where no token is impossible, the last phrase is not complete. -/
  atEnd : (∀ n, Viable ((tokensOf source).take n)) →
    error = .noMatchingRule "end of input" source.utf8ByteSize
      (fragmentAt source source.utf8ByteSize)

theorem viable_of_append {first second : List Token} (h : Viable (first ++ second)) : Viable first := by
  obtain ⟨rest, h⟩ := h
  exact ⟨second ++ rest, by rwa [← List.append_assoc]⟩

theorem Viable.take {tokens : List Token} (h : Viable tokens) (n : Nat) : Viable (tokens.take n) := by
  rw [← List.take_append_drop n tokens] at h
  exact viable_of_append h

/-! ### Every state can be completed -/

/-- The phrase being read can be completed. -/
theorem exists_reads_between (reader : Reader) :
    ∃ rest next, Reads reader rest next ∧ Between reader.hooks next := by
  obtain ⟨hooks, phrases, reading⟩ := reader
  cases reading with
  | prose run => exact ⟨[], _, .nil, .prose⟩
  | called call => exact ⟨[], _, .nil, .called⟩
  | calling head inner body =>
      -- one closing parenthesis for each call that is open
      induction inner generalizing body with
      | zero => exact ⟨[⟨.closeParen, ")", 0, 1⟩], _, (Steps.closeCall rfl).reads, .called⟩
      | succ inner ih =>
          obtain ⟨rest, next, hreads, hnext⟩ := ih (⟨.closeParen, ")", 0, 1⟩ :: body)
          exact ⟨⟨.closeParen, ")", 0, 1⟩ :: rest, next, .cons (.unnest rfl) hreads, hnext⟩
  | linking opening inside =>
      have hawaits : awaitsSegment (⟨.text, "x", 0, 1⟩ :: inside) = false := rfl
      exact ⟨[⟨.text, "x", 0, 1⟩, ⟨.linkClose, "]]", 1, 3⟩], _,
        .cons (.linkText rfl) (Steps.closeLink hawaits rfl).reads, .prose⟩

/-- The open hooks can be closed. -/
theorem exists_reads_outside {hooks : List OpenHook} {reader : Reader} (h : Between hooks reader) :
    ∃ rest next, Reads reader rest next ∧ Between [] next := by
  induction hooks generalizing reader with
  | nil => exact ⟨[], reader, .nil, h⟩
  | cons hook outer ih =>
      have hkind : (⟨.hookClose, "]", 0, 1⟩ : Token).kind = .hookClose := rfl
      obtain ⟨middle, hstep, hmiddle⟩ := h.step_closeHook hkind
      obtain ⟨rest, next, hreads, hnext⟩ := ih hmiddle
      exact ⟨_ :: rest, next, .cons hstep hreads, hnext⟩

/-- The tokens that can be read are those with which a passage starts. -/
theorem viable_iff {tokens : List Token} : Viable tokens ↔ ∃ last, Reads .start tokens last := by
  constructor
  · rintro ⟨rest, h⟩
    obtain ⟨phrases, hphrases⟩ := exists_readPhrases_iff.2 h
    rcases reads_or_stops .start tokens with hreads | ⟨front, token, behind, last, rfl, hfront, hnone⟩
    · exact hreads
    · -- reading would stop within the tokens, whatever follows them
      rw [List.append_assoc, List.cons_append, readPhrases, readFrom_of_stopped hfront hnone] at hphrases
      cases hphrases
  · rintro ⟨last, hlast⟩
    obtain ⟨closing, middle, hclosing, hmiddle⟩ := exists_reads_between last
    obtain ⟨outside, next, houtside, hnext⟩ := exists_reads_outside hmiddle
    obtain ⟨phrases, hfinish⟩ := exists_finish hnext
    refine ⟨closing ++ outside, exists_readPhrases_iff.1 ⟨phrases, readFrom_eq_ok_iff.2 ⟨next, ?_, hfinish⟩⟩⟩
    exact hlast.append (hclosing.append houtside)

/-! ### Reading is deterministic -/

theorem Steps.unique {reader first second : Reader} {token : Token} (hfirst : Steps reader token first)
    (hsecond : Steps reader token second) : first = second := by
  have hsome := step_eq_some_iff.2 hfirst
  rw [step_eq_some_iff.2 hsecond, Option.some.injEq] at hsome
  exact hsome.symm

theorem Reads.unique {reader first second : Reader} {tokens : List Token}
    (hfirst : Reads reader tokens first) (hsecond : Reads reader tokens second) : first = second := by
  induction hfirst with
  | nil =>
      cases hsecond
      rfl
  | cons hstep _ ih =>
      cases hsecond with
      | cons hstep' hrest =>
          cases hstep.unique hstep'
          exact ih hrest

/-- Reading two lists in a row passes through a state between them. -/
theorem Reads.split {reader last : Reader} {first second : List Token}
    (h : Reads reader (first ++ second) last) :
    ∃ middle, Reads reader first middle ∧ Reads middle second last := by
  induction first generalizing reader with
  | nil => exact ⟨reader, .nil, h⟩
  | cons token first ih =>
      cases h with
      | cons hstep hrest =>
          obtain ⟨middle, hfirst, hsecond⟩ := ih hrest
          exact ⟨middle, .cons hstep hfirst, hsecond⟩

/-- A passage is complete exactly in the states that may end. -/
theorem isPassage_iff_finish {tokens : List Token} {last : Reader} (h : Reads .start tokens last) :
    IsPassage tokens ↔ last.finish.isSome = true := by
  rw [← exists_readPhrases_iff, Option.isSome_iff_exists]
  constructor
  · rintro ⟨phrases, hphrases⟩
    obtain ⟨other, hother, hfinish⟩ := readFrom_eq_ok_iff.1 hphrases
    rw [h.unique hother]
    exact ⟨phrases, hfinish⟩
  · rintro ⟨phrases, hfinish⟩
    exact ⟨phrases, readFrom_eq_ok_iff.2 ⟨last, h, hfinish⟩⟩

theorem between_of_finish {reader : Reader} (h : reader.finish.isSome = true) : Between [] reader := by
  obtain ⟨hooks, phrases, reading⟩ := reader
  cases hooks with
  | cons hook outer => cases h
  | nil =>
      cases reading with
      | prose run => exact .prose
      | called call => exact .called
      | calling head inner body => cases h
      | linking opening inside => cases h

/-! ### The first impossible token -/

section Refused

variable {front behind : List Token} {token : Token} {last : Reader}

theorem not_reads_of_refused (hfront : Reads .start front last) (hnone : last.step token = none)
    (next : Reader) : ¬ Reads .start (front ++ [token]) next := by
  intro hreads
  obtain ⟨middle, hmiddle, hlast⟩ := hreads.split
  cases hlast with
  | cons hstep _ =>
      rw [← hfront.unique hmiddle] at hstep
      exact not_steps_of_refused hnone _ hstep

/-- The token that reading refuses is the first impossible one. -/
theorem firstImpossible_iff (hfront : Reads .start front last) (hnone : last.step token = none)
    {k : Nat} : FirstImpossible (front ++ token :: behind) k ↔ k = front.length := by
  have htake : (front ++ token :: behind).take (front.length + 1) = front ++ [token] := by
    rw [List.take_append, List.take_of_length_le (Nat.le_succ _)]
    simp
  have himpossible : ¬ Viable (front ++ [token]) := by
    intro hviable
    obtain ⟨next, hnext⟩ := viable_iff.1 hviable
    exact not_reads_of_refused hfront hnone next hnext
  have hpossible : ∀ i < front.length, Viable ((front ++ token :: behind).take (i + 1)) := by
    intro i hi
    rw [List.take_append_of_le_length hi]
    exact (viable_iff.2 ⟨last, hfront⟩).take (i + 1)
  constructor
  · rintro ⟨_, hnot, hbefore⟩
    rcases Nat.lt_trichotomy k front.length with hlt | heq | hgt
    · exact absurd (hpossible k hlt) hnot
    · exact heq
    · have hviable := hbefore front.length hgt
      rw [htake] at hviable
      exact absurd hviable himpossible
  · rintro rfl
    refine ⟨by simp, ?_, hpossible⟩
    rw [htake]
    exact himpossible

/-- Brackets are opened between phrases only. -/
theorem Steps.between_of_opening {reader next : Reader} (h : Steps reader token next)
    (hkind : token.kind = .hookOpen ∨ token.kind = .linkOpen) : Between reader.hooks reader := by
  have hbracket : token.kind.isBracket = true := by
    rcases hkind with hkind | hkind <;> rw [hkind] <;> rfl
  obtain ⟨hooks, phrases, reading⟩ := reader
  cases reading with
  | prose run => exact .prose
  | called call => exact .called
  | calling head inner body =>
      cases h with
      | plain hplain _ _ =>
          rw [hbracket] at hplain
          cases hplain
      | nest hhead | unnest hhead | closeCall hhead => simp [hhead] at hkind
  | linking opening inside =>
      cases h with
      | linkText htext =>
          rcases hkind with hkind | hkind <;> rw [hkind] at htext <;> cases htext
      | arrow _ hother | closeLink _ hother => simp [hother] at hkind

/-- What may come between phrases and starts with an opening bracket does not end with a token that
reading refuses. -/
theorem not_accepts_of_refused {before inside : List Token} {opening : Token}
    (hfront : Reads .start (before ++ opening :: inside) last) (hnone : last.step token = none)
    (hopening : opening.kind = .hookOpen ∨ opening.kind = .linkOpen) :
    ¬ ∀ hooks reader, Between hooks reader →
        ∃ next, Reads reader (opening :: (inside ++ [token])) next ∧ Between hooks next := by
  intro haccepts
  obtain ⟨middle, hbefore, hreads⟩ := hfront.split
  have hbetween : Between middle.hooks middle := by
    cases hreads with
    | cons hstep _ => exact hstep.between_of_opening hopening
  obtain ⟨next, hnext, _⟩ := haccepts middle.hooks middle hbetween
  apply not_reads_of_refused hfront hnone next
  rw [List.append_assoc]
  exact hbefore.append hnext

/-- A token that reading refuses ends no hook and no link. -/
theorem not_closes_of_refused (hfront : Reads .start front last) (hnone : last.step token = none)
    (before inside : List Token) (hparts : front = before ++ inside) :
    ¬ Derives .hook (inside ++ [token]) ∧ ¬ Derives .link (inside ++ [token]) := by
  subst hparts
  constructor
  · intro hhook
    generalize htokens : inside ++ [token] = tokens at hhook
    have haccepts : Accepts .hook tokens := accepts_of_derives hhook
    cases hhook with
    | hook hopening _ _ =>
        rw [← List.cons_append] at htokens
        obtain ⟨rfl, hlast⟩ := List.append_inj' htokens rfl
        cases hlast
        exact not_accepts_of_refused hfront hnone (.inl hopening) haccepts
  · intro hlink
    generalize htokens : inside ++ [token] = tokens at hlink
    have haccepts : Accepts .link tokens := accepts_of_derives hlink
    cases hlink with
    | link hopening _ _ =>
        rw [← List.cons_append] at htokens
        obtain ⟨rfl, hlast⟩ := List.append_inj' htokens rfl
        cases hlast
        exact not_accepts_of_refused hfront hnone (.inr hopening) haccepts

end Refused

/-! ### The error -/

/-- A passage that cannot be read is refused with the error of the place where reading stops, whatever
the catalog. -/
theorem parse_of_stop {catalog : Catalog} {source : String} {stop : Stop}
    (h : readPhrases (tokensOf source) = .error stop) :
    parse catalog source = .error (stop.toError source) := by
  rw [parse_eq, phrasesOf_eq, h]
  rfl

theorem quotes_of_onBoundary {source : String} {error : ParseError}
    (hboundary : OnBoundary source error.offset)
    (hfragment : error.fragment = fragmentAt source error.offset) : error.Quotes source := by
  obtain ⟨before, behind, hsource, hoffset⟩ := hboundary
  refine ⟨before, behind, hsource, hoffset.symm, ?_⟩
  rw [hfragment, ← hoffset, fragmentAt, hsource, dropBytes_append]
  rfl

/-- The error of a passage that ends within a phrase. -/
theorem locates_atEnd {source : String} {last : Reader} (hlast : Reads .start (tokensOf source) last) :
    (Stop.atEnd.toError source).Locates source := by
  have hpossible : ∀ k, ¬ FirstImpossible (tokensOf source) k := by
    intro k hfirst
    exact hfirst.2.1 ((viable_iff.2 ⟨last, hlast⟩).take (k + 1))
  refine ⟨?_, ?_, ?_, fun _ => rfl⟩
  · exact quotes_of_onBoundary ⟨source.toList, [], by simp, (utf8ByteSize_eq source).symm⟩ rfl
  · intro k token hfirst
    exact absurd hfirst (hpossible k)
  · intro k token hfirst
    exact absurd hfirst (hpossible k)

/-- The error of a passage in which a token is refused. -/
theorem locates_stopped {source : String} {front behind : List Token} {token : Token} {last : Reader}
    (htokens : tokensOf source = front ++ token :: behind) (hfront : Reads .start front last)
    (hnone : last.step token = none) :
    ((if last.finish.isSome then Stop.trailing token else Stop.unexpected token).toError
      source).Locates source := by
  have hplace : ∀ {k : Nat} {other : Token}, FirstImpossible (tokensOf source) k →
      (tokensOf source)[k]? = some other → other = token ∧ (tokensOf source).take k = front := by
    intro k other hfirst hother
    rw [htokens] at hfirst hother ⊢
    rw [(firstImpossible_iff hfront hnone).1 hfirst] at hother ⊢
    simp only [List.getElem?_append_right, Nat.le_refl, Nat.sub_self, List.getElem?_cons_zero,
      Option.some.injEq] at hother
    exact ⟨hother.symm, List.take_left⟩
  have hboundary : OnBoundary source token.start := by
    have hmem : token ∈ tokensOf source := by simp [htokens]
    exact ((tiles_tokensOf source).mem_slice hmem).1
  refine ⟨?_, ?_, ?_, ?_⟩
  · split
    · exact quotes_of_onBoundary hboundary rfl
    · exact quotes_of_onBoundary hboundary rfl
  · intro k other hfirst hother hpassage
    obtain ⟨rfl, htake⟩ := hplace hfirst hother
    rw [htake] at hpassage ⊢
    have hfinish := (isPassage_iff_finish hfront).1 hpassage
    rw [if_pos hfinish]
    have hclosing : other.kind = .hookClose ∨ other.kind = .linkClose :=
      ((between_of_finish hfinish).closing_of_refused hnone).symm.imp_left And.left
    exact ⟨rfl, hclosing, not_closes_of_refused hfront hnone⟩
  · intro k other hfirst hother hpassage
    obtain ⟨rfl, htake⟩ := hplace hfirst hother
    rw [htake, isPassage_iff_finish hfront] at hpassage
    rw [if_neg hpassage]
    rfl
  · intro hviable
    have himpossible : FirstImpossible (tokensOf source) front.length := by
      rw [htokens]
      exact (firstImpossible_iff hfront hnone).2 rfl
    exact absurd (hviable _) himpossible.2.1

/-- Reading a passage that the grammar does not generate stops somewhere, and the error of the place locates
the first impossible token or the end of the source. -/
theorem exists_stop {source : String} (h : ¬ IsPassage (tokensOf source)) :
    ∃ stop, readPhrases (tokensOf source) = .error stop ∧ (stop.toError source).Locates source := by
  rcases reads_or_stops .start (tokensOf source) with
    ⟨last, hlast⟩ | ⟨front, token, behind, last, htokens, hfront, hnone⟩
  · have hfinish : last.finish = none := by
      rw [isPassage_iff_finish hlast] at h
      simpa using h
    refine ⟨.atEnd, ?_, locates_atEnd hlast⟩
    rw [readPhrases, readFrom_of_reads_all hlast, hfinish]
  · refine ⟨_, ?_, locates_stopped htokens hfront hnone⟩
    rw [htokens, readPhrases, readFrom_of_stopped hfront hnone]

/-- A passage that the grammar does not generate is refused with an error of the grammar, under every
catalog, and the error locates the first impossible token or the end of the source. Of the ways in which the
rules could come to an error only one is taken: reading items does not fail, it leaves tokens, and the item
that is read once more in front of these does fail; its failures are classified to that error. -/
theorem parse_error_at_first_impossible (catalog : Catalog) (source : String)
    (h : ¬ IsPassage (tokensOf source)) :
    (∃ error, parse catalog source = .error error ∧ error.Locates source) ∧
      ∃ sketches rest failures,
        (Grammar.items source).run (tokensOf source) = .ok (sketches, rest) ∧ rest ≠ [] ∧
        (Grammar.item source).run rest = .error failures ∧
        parse catalog source = .error (stopError source rest) ∧
        stopError source rest = classify source rest failures := by
  obtain ⟨stop, hstop, hlocates⟩ := exists_stop h
  have hparse : parse catalog source = .error (stop.toError source) := parse_of_stop hstop
  obtain ⟨sketches, rest, failures, hitems, hne, hitem, herror⟩ := items_of_error source hstop
  have hclassify : stopError source rest = classify source rest failures := by rw [stopError, hitem]
  refine ⟨⟨_, hparse, hlocates⟩, sketches, rest, failures, hitems, hne, hitem, ?_, hclassify⟩
  rw [hparse, hclassify, herror]

/-- A link inside the hook of a call, which a bracket breaks behind its arrow: no item is complete in front of
the call. -/
theorem parse_error_at_first_impossible_arrow :
    ¬ IsPassage (tokensOf "(a: 1)[ [[x->] y") ∧
      parse .empty "(a: 1)[ [[x->] y" = .error (.noMatchingRule "hook-close" 13 "] y") ∧
      (ParseError.noMatchingRule "hook-close" 13 "] y").Locates "(a: 1)[ [[x->] y" ∧
      ∃ rest failures, (Grammar.item "(a: 1)[ [[x->] y").run rest = .error failures ∧
        classify "(a: 1)[ [[x->] y" rest failures = .noMatchingRule "hook-close" 13 "] y" := by
  have hrefused : (readPhrases (tokensOf "(a: 1)[ [[x->] y")).isOk = false := by decide +kernel
  have hnot : ¬ IsPassage (tokensOf "(a: 1)[ [[x->] y") := by
    rw [← exists_readPhrases_iff]
    rintro ⟨phrases, hphrases⟩
    rw [hphrases] at hrefused
    cases hrefused
  obtain ⟨⟨error, herror, hlocates⟩, _, rest, failures, _, _, hitem, hstop, hclassify⟩ :=
    parse_error_at_first_impossible .empty "(a: 1)[ [[x->] y" hnot
  have hanswer : parse .empty "(a: 1)[ [[x->] y" = .error (.noMatchingRule "hook-close" 13 "] y") := by
    decide +kernel
  rw [hanswer] at herror hstop
  cases herror
  refine ⟨hnot, hanswer, hlocates, rest, failures, hitem, ?_⟩
  rw [← hclassify]
  exact (Except.error.inj hstop).symm

end PassageMarkup
