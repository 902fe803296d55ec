/-
Module: PassageMarkup.Proofs.ReaderSound
Layer: Proofs
Purpose: What reading builds. Two invariants hold in every state of reading: the tokens that the state
  holds, in order, are exactly the tokens read so far, and everything in the state fits the grammar, the
  finished phrases as wholes and the open ones as far as they go. Hence the phrases that reading answers
  have all the tokens of the passage, each once and in order, and the grammar generates them.
Imports: Proofs.ReaderSteps
Main exports: Phrase.Fits, FitsAll, inside_part_hook, derives_of_fits, Reader.yield, Reader.Fits,
  Steps.yield, Steps.fits, readPhrases_fits
-/
import PassageMarkup.Proofs.ReaderSteps

namespace PassageMarkup

/-! ### Phrases that fit the grammar -/

/-- A call whose head, body and closing parenthesis are as the grammar says. -/
def CallText.Fits (call : CallText) : Prop :=
  call.head.kind = .callHead ∧ Derives .elements call.body ∧ call.closing.kind = .closeParen

/-- There is no bracket in a call. -/
theorem CallText.Fits.not_isBracket {call : CallText} (h : call.Fits) :
    ∀ token ∈ call.yield, token.kind.isBracket = false := by
  rcases h with ⟨hhead, hbody, hclosing⟩
  exact (Derives.elementNested hhead hbody hclosing).not_isBracket rfl

mutual

/-- A phrase that is put together as the grammar says, for a level. -/
def Phrase.Fits (level : Level) : Phrase → Prop
  | .prose run => run ≠ [] ∧ ∀ token ∈ run, level.isRun token.kind = true
  | .value token => level = .hook ∧ (token.kind = .string ∨ token.kind = .variable)
  | .link opening inside closing =>
      opening.kind = .linkOpen ∧ Derives .segments inside ∧ closing.kind = .linkClose
  | .hook opening children closing =>
      opening.kind = .hookOpen ∧ FitsAll .hook children ∧ closing.kind = .hookClose
  | .call text => text.Fits
  | .hooked text opening children closing =>
      text.Fits ∧ opening.kind = .hookOpen ∧ FitsAll .hook children ∧ closing.kind = .hookClose

/-- Phrases that all fit a level. -/
def FitsAll (level : Level) : List Phrase → Prop
  | [] => True
  | phrase :: rest => phrase.Fits level ∧ FitsAll level rest

end

theorem fitsAll_iff {level : Level} {phrases : List Phrase} :
    FitsAll level phrases ↔ ∀ phrase ∈ phrases, phrase.Fits level := by
  induction phrases with
  | nil => simp [FitsAll]
  | cons phrase rest ih => simp [FitsAll, ih]

theorem fitsAll_reverse {level : Level} {phrases : List Phrase} :
    FitsAll level phrases.reverse ↔ FitsAll level phrases := by
  simp [fitsAll_iff]

theorem yieldAll_append (first second : List Phrase) :
    yieldAll (first ++ second) = yieldAll first ++ yieldAll second := by
  induction first with
  | nil => rfl
  | cons phrase rest ih => rw [List.cons_append, yieldAll, yieldAll, ih, List.append_assoc]

theorem yieldAll_reverse_cons (phrase : Phrase) (phrases : List Phrase) :
    yieldAll (phrase :: phrases).reverse = yieldAll phrases.reverse ++ phrase.yield := by
  rw [List.reverse_cons, yieldAll_append, yieldAll, yieldAll, List.append_nil]

/-! ### Parts of the tokens of phrases -/

section Parts

variable {text : CallText} {opening closing : Token} {inside : List Token} {phrase : Phrase}
  {children rest : List Phrase}

theorem inside_part_link : inside <:+: (Phrase.link opening inside closing).yield :=
  ⟨[opening], [closing], rfl⟩

theorem inside_part_hook : yieldAll children <:+: (Phrase.hook opening children closing).yield :=
  ⟨[opening], [closing], rfl⟩

theorem call_part_hooked : text.yield <:+: (Phrase.hooked text opening children closing).yield :=
  ⟨[], opening :: yieldAll children ++ [closing], by simp [Phrase.yield]⟩

theorem inside_part_hooked :
    yieldAll children <:+: (Phrase.hooked text opening children closing).yield :=
  ⟨text.yield ++ [opening], [closing], by simp [Phrase.yield]⟩

theorem first_part_yieldAll : phrase.yield <:+: yieldAll (phrase :: rest) :=
  (List.prefix_append _ _).isInfix

theorem rest_part_yieldAll : yieldAll rest <:+: yieldAll (phrase :: rest) :=
  (List.suffix_append _ _).isInfix

end Parts

mutual

/-- The grammar generates the tokens of a phrase that fits. -/
theorem derives_of_fits {level : Level} :
    ∀ {phrase : Phrase}, phrase.Fits level → Derives (.item level) phrase.yield
  | .prose _, ⟨hne, hrun⟩ => .itemRun hne hrun
  | .value _, ⟨hlevel, hkind⟩ => by
      subst hlevel
      rcases hkind with hkind | hkind
      · exact .itemString hkind
      · exact .itemVariable hkind
  | .link _ _ _, ⟨hopening, hinside, hclosing⟩ => .itemLink (.link hopening hinside hclosing)
  | .hook _ _ _, ⟨hopening, hchildren, hclosing⟩ =>
      .itemHook (.hook hopening (derives_of_fitsAll hchildren) hclosing)
  | .call _, ⟨hhead, hbody, hclosing⟩ => .itemCall (.call hhead hbody hclosing)
  | .hooked text opening children closing, ⟨⟨hhead, hbody, hclosing⟩, hopening, hchildren, hend⟩ => by
      have hhook : Derives .hook (opening :: (yieldAll children ++ [closing])) :=
        .hook hopening (derives_of_fitsAll hchildren) hend
      have hcall := Derives.callHooked hhead hbody hclosing hhook
      simpa [Phrase.yield, CallText.yield] using Derives.itemCall hcall

/-- The grammar generates the tokens of phrases that fit. -/
theorem derives_of_fitsAll {level : Level} :
    ∀ {phrases : List Phrase}, FitsAll level phrases → Derives (.items level) (yieldAll phrases)
  | [], _ => .itemsNil
  | _ :: _, ⟨hphrase, hrest⟩ => .itemsCons (derives_of_fits hphrase) (derives_of_fitsAll hrest)

end

/-! ### The tokens of a state -/

/-- The tokens of the phrase being read. -/
def Reading.yield : Reading → List Token
  | .prose run => run.reverse
  | .calling head _ body => head :: body.reverse
  | .called call => call.yield
  | .linking opening inside => opening :: inside.reverse

/-- The tokens of the call that a hook is attached to. -/
def OpenHook.callYield (hook : OpenHook) : List Token :=
  match hook.call with
  | none => []
  | some call => call.yield

/-- The tokens of open hooks, innermost first, with what stood in front of each. -/
def hooksYield : List OpenHook → List Token
  | [] => []
  | hook :: outer =>
      hooksYield outer ++ (yieldAll hook.before.reverse ++ (hook.callYield ++ [hook.opening]))

/-- All tokens of a state of reading in order. -/
def Reader.yield (reader : Reader) : List Token :=
  hooksYield reader.hooks ++ (yieldAll reader.phrases.reverse ++ reader.reading.yield)

theorem yieldAll_endRun (run : List Token) (phrases : List Phrase) :
    yieldAll (endRun run phrases).reverse = yieldAll phrases.reverse ++ run.reverse := by
  cases run with
  | nil => simp [endRun]
  | cons token run => exact yieldAll_reverse_cons (.prose (token :: run).reverse) phrases

theorem yield_close (hook : OpenHook) (children : List Phrase) (closing : Token) :
    (hook.close children closing).yield =
      hook.callYield ++ hook.opening :: (yieldAll children ++ [closing]) := by
  obtain ⟨call, opening, before⟩ := hook
  cases call <;> simp [OpenHook.close, OpenHook.callYield, Phrase.yield]

/-- A step adds the token to those of the state, behind all others. -/
theorem Steps.yield {reader next : Reader} {token : Token} (h : Steps reader token next) :
    next.yield = reader.yield ++ [token] := by
  induction h with
  | attach => simp [Reader.yield, Reading.yield, hooksYield, OpenHook.callYield, yieldAll]
  | detach _ _ ih =>
      rw [ih]
      simp [Reader.yield, Reading.yield, yieldAll_append, yieldAll, Phrase.yield]
  | openHook =>
      simp [Reader.yield, Reading.yield, hooksYield, OpenHook.callYield, yieldAll, yieldAll_endRun]
  | openLink => simp [Reader.yield, Reading.yield, yieldAll_endRun]
  | openCall => simp [Reader.yield, Reading.yield, yieldAll_endRun]
  | closeHook =>
      simp [Reader.yield, Reading.yield, hooksYield, yieldAll_append, yieldAll, yield_close,
        yieldAll_endRun]
  | value =>
      simp [Reader.yield, Reading.yield, yieldAll_append, yieldAll, Phrase.yield, yieldAll_endRun]
  | text => simp [Reader.yield, Reading.yield]
  | nest => simp [Reader.yield, Reading.yield]
  | unnest => simp [Reader.yield, Reading.yield]
  | plain => simp [Reader.yield, Reading.yield]
  | closeCall => simp [Reader.yield, Reading.yield, CallText.yield]
  | linkText => simp [Reader.yield, Reading.yield]
  | arrow => simp [Reader.yield, Reading.yield]
  | closeLink => simp [Reader.yield, Reading.yield, yieldAll_append, yieldAll, Phrase.yield]

theorem Reads.yield {reader last : Reader} {tokens : List Token} (h : Reads reader tokens last) :
    last.yield = reader.yield ++ tokens := by
  induction h with
  | nil => rw [List.append_nil]
  | cons hstep _ ih => rw [ih, hstep.yield, List.append_assoc, List.singleton_append]

/-! ### States that fit the grammar -/

/-- The inside of a call so far: elements, with `inner` heads of calls among them still open. -/
inductive OpenElements : Nat → List Token → Prop where
  | level {body : List Token} (hbody : Derives .elements body) : OpenElements 0 body
  | nested {inner : Nat} {before body : List Token} {head : Token}
      (hbefore : OpenElements inner before) (hhead : head.kind = .callHead)
      (hbody : Derives .elements body) : OpenElements (inner + 1) (before ++ head :: body)

theorem OpenElements.concat {inner : Nat} {tokens element : List Token}
    (h : OpenElements inner tokens) (helement : Derives .element element) :
    OpenElements inner (tokens ++ element) := by
  cases h with
  | level hbody => exact .level (hbody.elements_append helement.elements_one)
  | nested hbefore hhead hbody =>
      rw [List.append_assoc, List.cons_append]
      exact .nested hbefore hhead (hbody.elements_append helement.elements_one)

/-- A closing parenthesis completes the innermost open call to an element. -/
theorem OpenElements.close {inner : Nat} {tokens : List Token} {closing : Token}
    (h : OpenElements (inner + 1) tokens) (hclosing : closing.kind = .closeParen) :
    OpenElements inner (tokens ++ [closing]) := by
  cases h with
  | nested hbefore hhead hbody =>
      rw [List.append_assoc, List.cons_append]
      exact hbefore.concat (.elementNested hhead hbody hclosing)

/-- The inside of a link so far: nothing, segments, or segments and an arrow. -/
inductive OpenSegments : List Token → Prop where
  | start : OpenSegments []
  | segments {tokens : List Token} (h : Derives .segments tokens) : OpenSegments tokens
  | arrow {tokens : List Token} {arrow : Token} (h : Derives .segments tokens)
      (harrow : arrow.kind = .linkArrow) : OpenSegments (tokens ++ [arrow])

theorem OpenSegments.concat {tokens : List Token} {token : Token} (h : OpenSegments tokens)
    (htoken : token.kind.isLinkText = true) : Derives .segments (tokens ++ [token]) := by
  have hone : Derives .segments [token] := .segmentsOne (.segment_one htoken)
  cases h with
  | start => exact hone
  | segments h => exact h.segments_concat htoken
  | arrow h harrow =>
      rw [List.append_assoc]
      exact h.segments_append harrow hone

/-- A link that awaits no segment holds complete segments. -/
theorem OpenSegments.derives {inside : List Token} (h : OpenSegments inside.reverse)
    (hawaits : awaitsSegment inside = false) : Derives .segments inside.reverse := by
  generalize hreverse : inside.reverse = tokens at h
  cases h with
  | start =>
      rw [List.reverse_eq_nil_iff.1 hreverse] at hawaits
      cases hawaits
  | segments h => exact h
  | arrow h harrow =>
      have hinside := congrArg List.reverse hreverse
      rw [List.reverse_reverse, List.reverse_append] at hinside
      rw [hinside] at hawaits
      simp [awaitsSegment, harrow] at hawaits

/-- A phrase being read that fits the grammar as far as it goes. -/
def Reading.Fits (level : Level) : Reading → Prop
  | .prose run => ∀ token ∈ run, level.isRun token.kind = true
  | .calling head inner body => head.kind = .callHead ∧ OpenElements inner body.reverse
  | .called call => call.Fits
  | .linking opening inside => opening.kind = .linkOpen ∧ OpenSegments inside.reverse

/-- Open hooks, innermost first, that fit the grammar together with what stood in front of each. -/
def HooksFit : List OpenHook → Prop
  | [] => True
  | hook :: outer =>
      (hook.opening.kind = .hookOpen ∧ FitsAll (levelOf outer) hook.before ∧
        ∀ call, hook.call = some call → call.Fits) ∧ HooksFit outer

/-- A state of reading in which everything fits the grammar. -/
structure Reader.Fits (reader : Reader) : Prop where
  hooks : HooksFit reader.hooks
  phrases : FitsAll (levelOf reader.hooks) reader.phrases
  reading : reader.reading.Fits (levelOf reader.hooks)

theorem fits_start : Reader.start.Fits :=
  ⟨trivial, trivial, by simp [Reader.start, Reading.Fits]⟩

theorem fitsAll_endRun {level : Level} {run : List Token} {phrases : List Phrase}
    (hrun : ∀ token ∈ run, level.isRun token.kind = true) (hphrases : FitsAll level phrases) :
    FitsAll level (endRun run phrases) := by
  cases run with
  | nil => exact hphrases
  | cons token run =>
      refine ⟨⟨by simp, ?_⟩, hphrases⟩
      intro other hmem
      exact hrun other (List.mem_reverse.1 hmem)

/-- No token is in an empty run. -/
theorem fits_noRun (level : Level) : (Reading.prose []).Fits level := by
  simp [Reading.Fits]

/-- The phrase that a fitting hook becomes fits the level outside it. -/
theorem fits_close {hook : OpenHook} {outer : List OpenHook} {children : List Phrase} {closing : Token}
    (hhook : HooksFit (hook :: outer)) (hchildren : FitsAll .hook children)
    (hclosing : closing.kind = .hookClose) :
    (hook.close children closing).Fits (levelOf outer) := by
  obtain ⟨⟨hopening, _, hcall⟩, _⟩ := hhook
  obtain ⟨call, opening, before⟩ := hook
  cases call with
  | none => exact ⟨hopening, hchildren, hclosing⟩
  | some call => exact ⟨hcall call rfl, hopening, hchildren, hclosing⟩

/-- A step keeps the state fitting the grammar. -/
theorem Steps.fits {reader next : Reader} {token : Token} (h : Steps reader token next)
    (hfits : reader.Fits) : next.Fits := by
  induction h with
  | attach hkind =>
      obtain ⟨hhooks, hphrases, hcall⟩ := hfits
      refine ⟨⟨⟨hkind, hphrases, ?_⟩, hhooks⟩, trivial, fits_noRun _⟩
      rintro call ⟨⟩
      exact hcall
  | detach _ _ ih =>
      obtain ⟨hhooks, hphrases, hcall⟩ := hfits
      exact ih ⟨hhooks, ⟨hcall, hphrases⟩, fits_noRun _⟩
  | openHook hkind =>
      obtain ⟨hhooks, hphrases, hrun⟩ := hfits
      refine ⟨⟨⟨hkind, fitsAll_endRun hrun hphrases, ?_⟩, hhooks⟩, trivial, fits_noRun _⟩
      rintro call ⟨⟩
  | openLink hkind =>
      obtain ⟨hhooks, hphrases, hrun⟩ := hfits
      exact ⟨hhooks, fitsAll_endRun hrun hphrases, hkind, .start⟩
  | openCall hkind =>
      obtain ⟨hhooks, hphrases, hrun⟩ := hfits
      exact ⟨hhooks, fitsAll_endRun hrun hphrases, hkind, .level .elementsNil⟩
  | closeHook hkind =>
      obtain ⟨hhooks, hphrases, hrun⟩ := hfits
      have hchildren := fitsAll_reverse.2 (fitsAll_endRun hrun hphrases)
      exact ⟨hhooks.2, ⟨fits_close hhooks hchildren hkind, hhooks.1.2.1⟩, fits_noRun _⟩
  | value hkind =>
      obtain ⟨hhooks, hphrases, hrun⟩ := hfits
      exact ⟨hhooks, ⟨⟨rfl, hkind⟩, fitsAll_endRun hrun hphrases⟩, fits_noRun _⟩
  | text hkind =>
      obtain ⟨hhooks, hphrases, hrun⟩ := hfits
      refine ⟨hhooks, hphrases, ?_⟩
      intro other hmem
      rcases List.mem_cons.1 hmem with rfl | hmem
      · exact hkind
      · exact hrun other hmem
  | nest hkind =>
      obtain ⟨hhooks, hphrases, hhead, hbody⟩ := hfits
      refine ⟨hhooks, hphrases, hhead, ?_⟩
      rw [List.reverse_cons]
      exact .nested hbody hkind .elementsNil
  | unnest hkind =>
      obtain ⟨hhooks, hphrases, hhead, hbody⟩ := hfits
      refine ⟨hhooks, hphrases, hhead, ?_⟩
      rw [List.reverse_cons]
      exact hbody.close hkind
  | plain hbracket hnotHead hclosing =>
      obtain ⟨hhooks, hphrases, hhead, hbody⟩ := hfits
      refine ⟨hhooks, hphrases, hhead, ?_⟩
      rw [List.reverse_cons]
      exact hbody.concat (.elementPlain hbracket hnotHead hclosing)
  | closeCall hkind =>
      obtain ⟨hhooks, hphrases, hhead, hbody⟩ := hfits
      cases hbody with
      | level hbody => exact ⟨hhooks, hphrases, hhead, hbody, hkind⟩
  | linkText hkind =>
      obtain ⟨hhooks, hphrases, hopening, hinside⟩ := hfits
      refine ⟨hhooks, hphrases, hopening, ?_⟩
      rw [List.reverse_cons]
      exact .segments (hinside.concat hkind)
  | arrow hawaits hkind =>
      obtain ⟨hhooks, hphrases, hopening, hinside⟩ := hfits
      refine ⟨hhooks, hphrases, hopening, ?_⟩
      rw [List.reverse_cons]
      exact .arrow (hinside.derives hawaits) hkind
  | closeLink hawaits hkind =>
      obtain ⟨hhooks, hphrases, hopening, hinside⟩ := hfits
      exact ⟨hhooks, ⟨⟨hopening, hinside.derives hawaits, hkind⟩, hphrases⟩, fits_noRun _⟩

theorem Reads.fits {reader last : Reader} {tokens : List Token} (h : Reads reader tokens last)
    (hfits : reader.Fits) : last.Fits := by
  induction h with
  | nil => exact hfits
  | cons hstep _ ih => exact ih (hstep.fits hfits)

/-! ### The answer -/

/-- A state that may end answers phrases that fit and have exactly the tokens of the state. -/
theorem fits_of_finish {reader : Reader} {phrases : List Phrase} (hfits : reader.Fits)
    (h : reader.finish = some phrases) : FitsAll .passage phrases ∧ yieldAll phrases = reader.yield := by
  obtain ⟨hooks, before, reading⟩ := reader
  obtain ⟨_, hbefore, hreading⟩ := hfits
  unfold Reader.finish at h
  split at h
  · next run hhooks hprose =>
    simp only at hhooks hprose
    subst hhooks hprose
    cases h
    refine ⟨fitsAll_reverse.2 (fitsAll_endRun hreading hbefore), ?_⟩
    simp [Reader.yield, hooksYield, Reading.yield, yieldAll_endRun]
  · next call hhooks hcalled =>
    simp only at hhooks hcalled
    subst hhooks hcalled
    cases h
    refine ⟨fitsAll_reverse.2 ⟨hreading, hbefore⟩, ?_⟩
    simp [Reader.yield, hooksYield, Reading.yield, yieldAll_append, yieldAll, Phrase.yield]
  · cases h

/-- The phrases of a passage fit the grammar and have exactly its tokens, in order. -/
theorem readPhrases_fits {tokens : List Token} {phrases : List Phrase}
    (h : readPhrases tokens = .ok phrases) : FitsAll .passage phrases ∧ yieldAll phrases = tokens := by
  obtain ⟨last, hreads, hfinish⟩ := readFrom_eq_ok_iff.1 h
  have hyield : last.yield = tokens := hreads.yield
  obtain ⟨hfits, hall⟩ := fits_of_finish (hreads.fits fits_start) hfinish
  exact ⟨hfits, hall.trans hyield⟩

end PassageMarkup
