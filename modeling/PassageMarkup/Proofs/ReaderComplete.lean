/-
Module: PassageMarkup.Proofs.ReaderComplete
Layer: Proofs
Purpose: Reading takes everything that the grammar generates. Reading never tries a second way, so the
  proof says for each symbol of the grammar what its tokens do to any state in which they may come: items
  lead from a state between phrases to another one with the same hooks open, elements stay inside their
  call, segments inside their link. With the converse this makes reading decide the grammar.
Imports: Proofs.ReaderSound
Main exports: Between, Accepts, accepts_of_derives, exists_readPhrases_iff
-/
import PassageMarkup.Proofs.ReaderSound

namespace PassageMarkup

/-- A state between phrases with the given hooks open: behind running text or behind a call. -/
inductive Between (hooks : List OpenHook) : Reader → Prop where
  | prose {phrases : List Phrase} {run : List Token} : Between hooks ⟨hooks, phrases, .prose run⟩
  | called {phrases : List Phrase} {call : CallText} : Between hooks ⟨hooks, phrases, .called call⟩

/-- What the tokens of a symbol do to the states in which they may come. -/
def Accepts : Symbol → List Token → Prop
  | .items level, tokens | .item level, tokens =>
      ∀ hooks reader, levelOf hooks = level → Between hooks reader →
        ∃ next, Reads reader tokens next ∧ Between hooks next
  | .call, tokens | .link, tokens | .hook, tokens =>
      ∀ hooks reader, Between hooks reader → ∃ next, Reads reader tokens next ∧ Between hooks next
  | .elements, tokens | .element, tokens =>
      ∀ hooks phrases head inner body, ∃ last,
        Reads ⟨hooks, phrases, .calling head inner body⟩ tokens
          ⟨hooks, phrases, .calling head inner last⟩
  | .segments, tokens | .segment, tokens =>
      ∀ hooks phrases opening inside, ∃ last, awaitsSegment last = false ∧
        Reads ⟨hooks, phrases, .linking opening inside⟩ tokens ⟨hooks, phrases, .linking opening last⟩

/-! ### Single tokens between phrases -/

/-- A token other than an opening hook does behind a call what it does behind running text. -/
theorem Between.step {hooks : List OpenHook} {reader : Reader} {token : Token} {P : Reader → Prop}
    (h : Between hooks reader) (hkind : token.kind ≠ .hookOpen)
    (hstep : ∀ phrases run, ∃ next, Steps ⟨hooks, phrases, .prose run⟩ token next ∧ P next) :
    ∃ next, Steps reader token next ∧ P next := by
  cases h with
  | @prose phrases run => exact hstep phrases run
  | @called phrases call =>
      obtain ⟨next, hnext, hP⟩ := hstep (.call call :: phrases) []
      exact ⟨next, .detach hkind hnext, hP⟩

theorem Between.step_text {hooks : List OpenHook} {reader : Reader} {token : Token}
    (h : Between hooks reader) (hkind : (levelOf hooks).isRun token.kind = true) :
    ∃ next, Steps reader token next ∧ Between hooks next := by
  refine h.step ?_ fun phrases run => ⟨_, .text hkind, .prose⟩
  intro hopen
  rw [hopen] at hkind
  cases hlevel : levelOf hooks <;> rw [hlevel] at hkind <;> cases hkind

theorem Between.step_value {hook : OpenHook} {outer : List OpenHook} {reader : Reader} {token : Token}
    (h : Between (hook :: outer) reader) (hkind : token.kind = .string ∨ token.kind = .variable) :
    ∃ next, Steps reader token next ∧ Between (hook :: outer) next := by
  refine h.step ?_ fun phrases run => ⟨_, .value hkind, .prose⟩
  rcases hkind with hkind | hkind <;> simp [hkind]

/-- An opening bracket starts a hook from any state between phrases. -/
theorem Between.step_hook {hooks : List OpenHook} {reader : Reader} {token : Token}
    (h : Between hooks reader) (hkind : token.kind = .hookOpen) :
    ∃ hook next, Steps reader token next ∧ Between (hook :: hooks) next := by
  cases h with
  | prose => exact ⟨_, _, .openHook hkind, .prose⟩
  | called => exact ⟨_, _, .attach hkind, .prose⟩

theorem Between.step_closeHook {hook : OpenHook} {outer : List OpenHook} {reader : Reader}
    {token : Token} (h : Between (hook :: outer) reader) (hkind : token.kind = .hookClose) :
    ∃ next, Steps reader token next ∧ Between outer next :=
  h.step (by simp [hkind]) fun _ _ => ⟨_, .closeHook hkind, .prose⟩

theorem Between.step_link {hooks : List OpenHook} {reader : Reader} {token : Token}
    (h : Between hooks reader) (hkind : token.kind = .linkOpen) :
    ∃ next, Steps reader token next ∧ ∃ phrases, next = ⟨hooks, phrases, .linking token []⟩ :=
  h.step (by simp [hkind]) fun _ _ => ⟨_, .openLink hkind, _, rfl⟩

theorem Between.step_call {hooks : List OpenHook} {reader : Reader} {token : Token}
    (h : Between hooks reader) (hkind : token.kind = .callHead) :
    ∃ next, Steps reader token next ∧ ∃ phrases, next = ⟨hooks, phrases, .calling token 0 []⟩ :=
  h.step (by simp [hkind]) fun _ _ => ⟨_, .openCall hkind, _, rfl⟩

/-! ### Runs -/

theorem Between.reads_run {hooks : List OpenHook} {reader : Reader} {run : List Token}
    (h : Between hooks reader) (hrun : ∀ token ∈ run, (levelOf hooks).isRun token.kind = true) :
    ∃ next, Reads reader run next ∧ Between hooks next := by
  induction run generalizing reader with
  | nil => exact ⟨reader, .nil, h⟩
  | cons token run ih =>
      obtain ⟨middle, hstep, hmiddle⟩ := h.step_text (hrun token List.mem_cons_self)
      obtain ⟨next, hreads, hnext⟩ :=
        ih hmiddle fun other hmem => hrun other (List.mem_cons_of_mem _ hmem)
      exact ⟨next, .cons hstep hreads, hnext⟩

/-- A run of link text goes into the link, and the link then awaits no segment. -/
theorem reads_segment {hooks : List OpenHook} {phrases : List Phrase} {opening : Token}
    {inside run : List Token} (hne : run ≠ [])
    (hrun : ∀ token ∈ run, token.kind.isLinkText = true) :
    ∃ last, awaitsSegment last = false ∧
      Reads ⟨hooks, phrases, .linking opening inside⟩ run ⟨hooks, phrases, .linking opening last⟩ := by
  induction run generalizing inside with
  | nil => exact absurd rfl hne
  | cons token run ih =>
      have htoken := hrun token List.mem_cons_self
      by_cases hend : run = []
      · subst hend
        refine ⟨token :: inside, ?_, (Steps.linkText htoken).reads⟩
        have harrow : token.kind ≠ .linkArrow := by
          intro harrow
          rw [harrow] at htoken
          cases htoken
        simpa [awaitsSegment] using harrow
      · obtain ⟨last, hawaits, hreads⟩ :=
          ih hend fun other hmem => hrun other (List.mem_cons_of_mem _ hmem)
        exact ⟨last, hawaits, .cons (.linkText htoken) hreads⟩

/-! ### All symbols -/

/-- Calls, links and hooks may come between phrases on every level. -/
theorem Accepts.item {tokens : List Token} {level : Level}
    (h : ∀ hooks reader, Between hooks reader → ∃ next, Reads reader tokens next ∧ Between hooks next) :
    Accepts (.item level) tokens :=
  fun hooks reader _ hreader => h hooks reader hreader

theorem accepts_call {head closing : Token} {body : List Token} (hhead : head.kind = .callHead)
    (hbody : Accepts .elements body) (hclosing : closing.kind = .closeParen) :
    Accepts .call (head :: (body ++ [closing])) := by
  intro hooks reader hreader
  obtain ⟨_, hstep, phrases, rfl⟩ := hreader.step_call hhead
  obtain ⟨last, hreads⟩ := hbody hooks phrases head 0 []
  exact ⟨_, .cons hstep (hreads.append (Steps.closeCall hclosing).reads), .called⟩

theorem accepts_hook {opening closing : Token} {inside : List Token}
    (hopening : opening.kind = .hookOpen) (hinside : Accepts (.items .hook) inside)
    (hclosing : closing.kind = .hookClose) : Accepts .hook (opening :: (inside ++ [closing])) := by
  intro hooks reader hreader
  obtain ⟨hook, first, hstep, hfirst⟩ := hreader.step_hook hopening
  obtain ⟨middle, hreads, hmiddle⟩ := hinside (hook :: hooks) first rfl hfirst
  obtain ⟨next, hclose, hnext⟩ := hmiddle.step_closeHook hclosing
  exact ⟨next, .cons hstep (hreads.append hclose.reads), hnext⟩

theorem accepts_link {opening closing : Token} {inside : List Token}
    (hopening : opening.kind = .linkOpen) (hinside : Accepts .segments inside)
    (hclosing : closing.kind = .linkClose) : Accepts .link (opening :: (inside ++ [closing])) := by
  intro hooks reader hreader
  obtain ⟨_, hstep, phrases, rfl⟩ := hreader.step_link hopening
  obtain ⟨last, hawaits, hreads⟩ := hinside hooks phrases opening []
  exact ⟨_, .cons hstep (hreads.append (Steps.closeLink hawaits hclosing).reads), .prose⟩

/-- Reading takes the tokens of every symbol of the grammar. -/
theorem accepts_of_derives {symbol : Symbol} {tokens : List Token} (h : Derives symbol tokens) :
    Accepts symbol tokens := by
  induction h with
  | itemsNil =>
      intro hooks reader _ hreader
      exact ⟨reader, .nil, hreader⟩
  | itemsCons _ _ ihItem ihRest =>
      intro hooks reader hlevel hreader
      obtain ⟨middle, hfirst, hmiddle⟩ := ihItem hooks reader hlevel hreader
      obtain ⟨next, hsecond, hnext⟩ := ihRest hooks middle hlevel hmiddle
      exact ⟨next, hfirst.append hsecond, hnext⟩
  | itemCall _ ih => exact .item ih
  | itemLink _ ih => exact .item ih
  | itemHook _ ih => exact .item ih
  | itemRun _ hrun =>
      intro hooks reader hlevel hreader
      exact hreader.reads_run (hlevel ▸ hrun)
  | itemString hkind =>
      intro hooks reader hlevel hreader
      cases hooks with
      | nil => cases hlevel
      | cons hook outer =>
          obtain ⟨next, hstep, hnext⟩ := hreader.step_value (.inl hkind)
          exact ⟨next, hstep.reads, hnext⟩
  | itemVariable hkind =>
      intro hooks reader hlevel hreader
      cases hooks with
      | nil => cases hlevel
      | cons hook outer =>
          obtain ⟨next, hstep, hnext⟩ := hreader.step_value (.inr hkind)
          exact ⟨next, hstep.reads, hnext⟩
  | call hhead _ hclosing ihBody => exact accepts_call hhead ihBody hclosing
  | @callHooked head closing body hook hhead _ hclosing _ ihBody ihHook =>
      intro hooks reader hreader
      obtain ⟨middle, hcall, hmiddle⟩ := accepts_call hhead ihBody hclosing hooks reader hreader
      obtain ⟨next, hhook, hnext⟩ := ihHook hooks middle hmiddle
      refine ⟨next, ?_, hnext⟩
      simpa using hcall.append hhook
  | elementsNil =>
      intro hooks phrases head inner body
      exact ⟨body, .nil⟩
  | elementsCons _ _ ihElement ihRest =>
      intro hooks phrases head inner body
      obtain ⟨middle, hfirst⟩ := ihElement hooks phrases head inner body
      obtain ⟨last, hsecond⟩ := ihRest hooks phrases head inner middle
      exact ⟨last, hfirst.append hsecond⟩
  | elementPlain hbracket hnotHead hnotClosing =>
      intro hooks phrases head inner body
      exact ⟨_, (Steps.plain hbracket hnotHead hnotClosing).reads⟩
  | elementNested hhead _ hclosing ihBody =>
      intro hooks phrases head inner body
      obtain ⟨last, hreads⟩ := ihBody hooks phrases head (inner + 1) _
      exact ⟨_, .cons (.nest hhead) (hreads.append (Steps.unnest hclosing).reads)⟩
  | link hopening _ hclosing ihInside => exact accepts_link hopening ihInside hclosing
  | segmentsOne _ ih => exact ih
  | segmentsCons _ harrow _ ihSegment ihRest =>
      intro hooks phrases opening inside
      obtain ⟨middle, hawaits, hfirst⟩ := ihSegment hooks phrases opening inside
      obtain ⟨last, hlast, hsecond⟩ := ihRest hooks phrases opening _
      exact ⟨last, hlast, hfirst.append (.cons (.arrow hawaits harrow) hsecond)⟩
  | segment hne hrun =>
      intro hooks phrases opening inside
      exact reads_segment hne hrun
  | hook hopening _ hclosing ihInside => exact accepts_hook hopening ihInside hclosing

theorem exists_finish {reader : Reader} (h : Between [] reader) : ∃ phrases, reader.finish = some phrases := by
  cases h with
  | prose => exact ⟨_, rfl⟩
  | called => exact ⟨_, rfl⟩

/-- Reading succeeds exactly on what the grammar generates. -/
theorem exists_readPhrases_iff {tokens : List Token} :
    (∃ phrases, readPhrases tokens = .ok phrases) ↔ IsPassage tokens := by
  constructor
  · rintro ⟨phrases, h⟩
    obtain ⟨hfits, hyield⟩ := readPhrases_fits h
    rw [← hyield]
    exact derives_of_fitsAll hfits
  · intro h
    obtain ⟨last, hreads, hlast⟩ := accepts_of_derives h [] Reader.start rfl .prose
    obtain ⟨phrases, hfinish⟩ := exists_finish hlast
    exact ⟨phrases, readFrom_eq_ok_iff.2 ⟨last, hreads, hfinish⟩⟩

end PassageMarkup
