/-
Module: PassageMarkup.Proofs.Separation
Layer: Proofs
Purpose: Phrases that belong together are read as one. Running text that goes on is one run, and a hook
  right behind a call is attached to it; so among the phrases of a level no run of prose has another one
  next to it, and no hook stands right behind a call without one. This is an invariant of reading: it holds
  for the finished phrases of every level, and the phrase being read cannot break it.
Imports: Mathlib.Data.List.Chain, Proofs.ReaderSound
Main exports: Phrase.isProse, Phrase.isHook, Phrase.isBareCall, Phrase.joins, ApartAll, apartAll_iff,
  Reader.Apart, Reader.Settled, Steps.apart, Reads.apart, readPhrases_apart
-/
import Mathlib.Data.List.Chain
import PassageMarkup.Proofs.ReaderSound

namespace PassageMarkup

/-! ### Phrases that belong together -/

/-- Whether a phrase is a run of prose. -/
def Phrase.isProse : Phrase → Bool
  | .prose _ => true
  | _ => false

/-- Whether a phrase is a hook that is attached to no call. -/
def Phrase.isHook : Phrase → Bool
  | .hook _ _ _ => true
  | _ => false

/-- Whether a phrase is a call without a hook. -/
def Phrase.isBareCall : Phrase → Bool
  | .call _ => true
  | _ => false

/-- Whether a phrase would have been read as one with the phrase behind it. -/
def Phrase.joins (first second : Phrase) : Bool :=
  first.isProse && second.isProse || first.isBareCall && second.isHook

mutual

/-- The phrases inside a phrase are apart. -/
def Phrase.ApartInside : Phrase → Prop
  | .prose _ | .value _ | .link _ _ _ | .call _ => True
  | .hook _ children _ => ApartAll children
  | .hooked _ _ children _ => ApartAll children

/-- No phrase of a level, nor of any level inside it, belongs to the next one. -/
def ApartAll : List Phrase → Prop
  | [] => True
  | phrase :: rest =>
      phrase.ApartInside ∧ (∀ next ∈ rest.head?, phrase.joins next = false) ∧ ApartAll rest

end

theorem apartAll_iff {phrases : List Phrase} :
    ApartAll phrases ↔ phrases.IsChain (fun first second => first.joins second = false) ∧
      ∀ phrase ∈ phrases, phrase.ApartInside := by
  induction phrases with
  | nil => simp [ApartAll]
  | cons phrase rest ih =>
      rw [ApartAll, ih, List.isChain_cons, List.forall_mem_cons]
      tauto

/-- A phrase may come behind others if the last of them does not belong to it. -/
theorem apartAll_reverse_cons {phrase : Phrase} {phrases : List Phrase}
    (hphrases : ApartAll phrases.reverse) (hphrase : phrase.ApartInside)
    (hlast : ∀ last ∈ phrases.head?, last.joins phrase = false) :
    ApartAll (phrase :: phrases).reverse := by
  rw [apartAll_iff] at hphrases ⊢
  rcases hphrases with ⟨hchain, hinside⟩
  rw [List.reverse_cons]
  constructor
  · apply hchain.append (List.isChain_singleton phrase)
    intro last hmem next hnext
    rw [List.getLast?_reverse] at hmem
    obtain rfl : phrase = next := by simpa using hnext
    exact hlast last hmem
  · intro other hmem
    rcases List.mem_append.1 hmem with hmem | hmem
    · exact hinside other hmem
    · rw [List.mem_singleton.1 hmem]
      exact hphrase

/-- Only prose and hooks can belong to what stands in front of them. -/
theorem joins_eq_false {first second : Phrase} (hprose : second.isProse = false)
    (hhook : second.isHook = false) : first.joins second = false := by
  simp [Phrase.joins, hprose, hhook]

/-! ### States of reading -/

/-- What stands in front of an open hook is apart, and the hook belongs to none of it. -/
structure OpenHook.Apart (hook : OpenHook) : Prop where
  before : ApartAll hook.before.reverse
  bare : hook.call = none → ∀ last ∈ hook.before.head?, last.isBareCall = false

/-- A state of reading in which all finished phrases are apart, and no run of prose stands right in front
of the one being read. -/
structure Reader.Apart (reader : Reader) : Prop where
  hooks : ∀ hook ∈ reader.hooks, hook.Apart
  phrases : ApartAll reader.phrases.reverse
  prose : ∀ run, reader.reading = .prose run → ∀ last ∈ reader.phrases.head?, last.isProse = false

/-- A state in which a hook would not stand right behind a call. Such are all states between two tokens;
only while a call is ended by the token behind it, the state in between is none. -/
def Reader.Settled (reader : Reader) : Prop :=
  reader.reading = .prose [] → ∀ last ∈ reader.phrases.head?, last.isBareCall = false

theorem apart_start : Reader.start.Apart ∧ Reader.start.Settled := by
  refine ⟨⟨?_, ?_, ?_⟩, ?_⟩
  · simp [Reader.start]
  · trivial
  · simp [Reader.start]
  · simp [Reader.start, Reader.Settled]

/-- A finished run of prose leaves the phrases apart. -/
theorem apartAll_endRun {run : List Token} {phrases : List Phrase}
    (hphrases : ApartAll phrases.reverse) (hlast : ∀ last ∈ phrases.head?, last.isProse = false) :
    ApartAll (endRun run phrases).reverse := by
  cases run with
  | nil => exact hphrases
  | cons token run =>
      show ApartAll (.prose (token :: run).reverse :: phrases).reverse
      apply apartAll_reverse_cons hphrases
      · trivial
      · intro last hmem
        simp [Phrase.joins, hlast last hmem, Phrase.isHook]

/-- Behind a run of prose no call is waiting for a hook. -/
theorem bare_endRun {run : List Token} {phrases : List Phrase}
    (hlast : run = [] → ∀ last ∈ phrases.head?, last.isBareCall = false) :
    ∀ last ∈ (endRun run phrases).head?, last.isBareCall = false := by
  cases run with
  | nil => exact hlast rfl
  | cons token run =>
      intro last hmem
      obtain rfl : Phrase.prose (token :: run).reverse = last := by simpa [endRun] using hmem
      rfl

/-- The phrase that a hook becomes may stand where the hook does. -/
theorem apartAll_close {hook : OpenHook} {children : List Phrase} {closing : Token}
    (hhook : hook.Apart) (hchildren : ApartAll children) :
    ApartAll (hook.close children closing :: hook.before).reverse := by
  rcases hook with ⟨call, opening, before⟩
  cases call with
  | none =>
      apply apartAll_reverse_cons hhook.before
      · exact hchildren
      · intro last hmem
        simp [Phrase.joins, OpenHook.close, hhook.bare rfl last hmem, Phrase.isProse]
  | some call =>
      apply apartAll_reverse_cons hhook.before
      · exact hchildren
      · exact fun _ _ => joins_eq_false rfl rfl

theorem close_kinds (hook : OpenHook) (children : List Phrase) (closing : Token) :
    (hook.close children closing).isProse = false ∧
      (hook.close children closing).isBareCall = false := by
  rcases hook with ⟨call, opening, before⟩
  cases call <;> exact ⟨rfl, rfl⟩

/-- A state that has just finished a phrase which is neither prose nor a call without a hook. -/
theorem apart_finished {hooks : List OpenHook} {phrase : Phrase} {phrases : List Phrase}
    (hhooks : ∀ hook ∈ hooks, hook.Apart) (hphrases : ApartAll (phrase :: phrases).reverse)
    (hprose : phrase.isProse = false) (hbare : phrase.isBareCall = false) :
    (Reader.mk hooks (phrase :: phrases) (.prose [])).Apart ∧
      (Reader.mk hooks (phrase :: phrases) (.prose [])).Settled := by
  have hlast : ∀ last ∈ (phrase :: phrases).head?, phrase = last := by simp
  refine ⟨⟨hhooks, hphrases, ?_⟩, ?_⟩
  · rintro run - last hmem
    rw [← hlast last hmem]
    exact hprose
  · rintro - last hmem
    rw [← hlast last hmem]
    exact hbare

/-- A state in which a hook has just been opened. -/
theorem apart_opened {hooks : List OpenHook} {hook : OpenHook} (hhook : hook.Apart)
    (hhooks : ∀ other ∈ hooks, other.Apart) :
    (Reader.mk (hook :: hooks) [] (.prose [])).Apart ∧
      (Reader.mk (hook :: hooks) [] (.prose [])).Settled := by
  refine ⟨⟨?_, trivial, by simp⟩, by simp [Reader.Settled]⟩
  intro other hmem
  rcases List.mem_cons.1 hmem with rfl | hmem
  · exact hhook
  · exact hhooks other hmem

/-- A state inside a call or a link, or behind a call. -/
theorem apart_within {hooks : List OpenHook} {phrases : List Phrase} {reading : Reading}
    (hhooks : ∀ hook ∈ hooks, hook.Apart) (hphrases : ApartAll phrases.reverse)
    (hreading : ∀ run, reading ≠ .prose run) :
    (Reader.mk hooks phrases reading).Apart ∧ (Reader.mk hooks phrases reading).Settled := by
  refine ⟨⟨hhooks, hphrases, ?_⟩, ?_⟩
  · intro run hrun
    exact absurd hrun (hreading run)
  · intro hnone
    exact absurd hnone (hreading [])

/-- A step keeps the phrases apart, and leads to a state in which a hook may be opened. -/
theorem Steps.apart {reader next : Reader} {token : Token} (h : Steps reader token next)
    (hapart : reader.Apart) (hsettled : token.kind = .hookOpen → reader.Settled) :
    next.Apart ∧ next.Settled := by
  induction h with
  | attach hkind => exact apart_opened ⟨hapart.phrases, by simp⟩ hapart.hooks
  | @detach hooks phrases call token next hkind hstep ih =>
      -- the call is finished before the token is looked at
      apply ih
      · have hphrases : ApartAll (.call call :: phrases).reverse :=
          apartAll_reverse_cons hapart.phrases trivial fun _ _ => joins_eq_false rfl rfl
        refine ⟨hapart.hooks, hphrases, ?_⟩
        rintro run - last hmem
        obtain rfl : Phrase.call call = last := by simpa using hmem
        rfl
      · intro hopen
        exact absurd hopen hkind
  | @openHook hooks phrases run token hkind =>
      apply apart_opened ?_ hapart.hooks
      refine ⟨apartAll_endRun hapart.phrases (hapart.prose run rfl), ?_⟩
      intro _
      apply bare_endRun
      rintro rfl
      exact hsettled hkind rfl
  | @openLink hooks phrases run token hkind =>
      exact apart_within hapart.hooks (apartAll_endRun hapart.phrases (hapart.prose run rfl)) (by simp)
  | @openCall hooks phrases run token hkind =>
      exact apart_within hapart.hooks (apartAll_endRun hapart.phrases (hapart.prose run rfl)) (by simp)
  | @closeHook hook outer phrases run token hkind =>
      have hchildren : ApartAll (endRun run phrases).reverse :=
        apartAll_endRun hapart.phrases (hapart.prose run rfl)
      have houter : ∀ other ∈ outer, other.Apart := fun other hmem =>
        hapart.hooks other (List.mem_cons_of_mem _ hmem)
      rcases close_kinds hook (endRun run phrases).reverse token with ⟨hprose, hbare⟩
      exact apart_finished houter (apartAll_close (hapart.hooks hook List.mem_cons_self) hchildren)
        hprose hbare
  | @value hook outer phrases run token hkind =>
      apply apart_finished hapart.hooks ?_ rfl rfl
      exact apartAll_reverse_cons (apartAll_endRun hapart.phrases (hapart.prose run rfl)) trivial
        fun _ _ => joins_eq_false rfl rfl
  | @text hooks phrases run token hkind =>
      refine ⟨⟨hapart.hooks, hapart.phrases, ?_⟩, by simp [Reader.Settled]⟩
      intro _ _
      exact hapart.prose run rfl
  | closeLink hawaits hkind =>
      apply apart_finished hapart.hooks ?_ rfl rfl
      exact apartAll_reverse_cons hapart.phrases trivial fun _ _ => joins_eq_false rfl rfl
  | nest | unnest | plain | closeCall | linkText | arrow =>
      exact apart_within hapart.hooks hapart.phrases (by simp)

theorem Reads.apart {reader last : Reader} {tokens : List Token} (h : Reads reader tokens last)
    (hapart : reader.Apart) (hsettled : reader.Settled) : last.Apart := by
  induction h with
  | nil => exact hapart
  | cons hstep _ ih =>
      rcases hstep.apart hapart fun _ => hsettled with ⟨hnext, hnextSettled⟩
      exact ih hnext hnextSettled

/-! ### The answer -/

theorem apart_of_finish {reader : Reader} {phrases : List Phrase} (hapart : reader.Apart)
    (h : reader.finish = some phrases) : ApartAll phrases := by
  rcases reader with ⟨hooks, before, reading⟩
  unfold Reader.finish at h
  split at h
  · next run hhooks hprose =>
    simp only at hprose
    subst hprose
    cases h
    exact apartAll_endRun hapart.phrases (hapart.prose run rfl)
  · cases h
    exact apartAll_reverse_cons hapart.phrases trivial fun _ _ => joins_eq_false rfl rfl
  · cases h

/-- The phrases of a passage are apart on every level. -/
theorem readPhrases_apart {tokens : List Token} {phrases : List Phrase}
    (h : readPhrases tokens = .ok phrases) : ApartAll phrases := by
  rcases readFrom_eq_ok_iff.1 h with ⟨last, hreads, hfinish⟩
  exact apart_of_finish (hreads.apart apart_start.1 apart_start.2) hfinish

end PassageMarkup
