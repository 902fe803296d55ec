/-
Module: PassageMarkup.Proofs.BrokenPhrases
Layer: Proofs
Purpose: What the rules of a passage do on a phrase that breaks off. They fail at the place where it does, at
  whatever depth that is: what a rule has met inside a call, a link or a hook is further than anything that
  is tried in place of it, and a hook right behind a call is not tried again without the call. So the phrases
  of a level that are complete are followed by what stands in the way itself, or by a phrase that fails
  there.
Imports: Proofs.PhraseRules
Main exports: Breaks, StopsAt, PhrasesStop, OpenHookAt, breaks_call, breaks_link, breaks_hook, breaks_hooked
-/
import PassageMarkup.Proofs.PhraseRules

namespace PassageMarkup

/-- A phrase that starts with these tokens and breaks off at `stuck`, further on: whichever rules are
tried, they fail there. -/
structure Breaks (source : String) (tokens stuck : List Token) : Prop where
  failed : ∀ {level : Level} {size : Nat} {call : Rule Sketch} {hook : Rule (List Sketch)},
    Standing source size call hook → tokens.length ≤ size →
      Grammar.anyOf source call hook level.running tokens = .failed stuck
  shorter : stuck.length < tokens.length
  opens : ∀ token ∈ tokens.head?,
    token.kind = .callHead ∨ token.kind = .linkOpen ∨ token.kind = .hookOpen

section Broken

variable {source : String} {tokens stuck : List Token}

theorem not_isRun_of_head {kind : Kind} (h : ∀ token ∈ tokens.head?, token.kind = kind)
    (hkind : Level.passage.isRun kind = false) :
    ∀ token ∈ tokens.head?, Level.passage.isRun token.kind = false := fun token hmem => by
  rw [h token hmem, hkind]

/-- A call whose rule fails further on breaks off there. -/
theorem breaks_of_call {head : Token} (hhead : head.kind = .callHead)
    (hfailed : Grammar.call source (head :: tokens) = .failed stuck)
    (hshorter : stuck.length < (head :: tokens).length) : Breaks source (head :: tokens) stuck := by
  have hkind : ∀ token ∈ (head :: tokens).head?, token.kind = .callHead := by
    rintro token ⟨⟩
    exact hhead
  refine ⟨?_, hshorter, fun token hmem => .inl (hkind token hmem)⟩
  intro level size call hook hstanding hsize
  rcases hstanding.failed_others hsize hkind with ⟨_, hlink, hhook⟩
  have hrunning := failed_running level (not_isRun_of_head hkind rfl)
  have hlast := failed_orElse (hhook (by decide)) hrunning (Nat.le_refl _)
  have hothers := failed_orElse (hlink (by decide)) hlast (Nat.le_refl _)
  exact failed_orElse_left ((hstanding.call_agrees _ hsize).trans hfailed) hothers hshorter

/-- A call that is open breaks off at the bracket in it, or at the end. -/
theorem breaks_call {head : Token} {inner : Nat} {body : List Token} (hhead : head.kind = .callHead)
    (hbody : OpenElements inner body) (hstuck : ∀ token ∈ stuck.head?, token.kind.isBracket = true) :
    Breaks source (head :: (body ++ stuck)) stuck := by
  apply breaks_of_call hhead
  · rw [call_eq]
    have harguments := failed_arguments hbody hstuck
    exact failed_map (failed_andThen_left ((yields_kind hhead).failed_andThen harguments (by simp)) _) _
  · exact length_lt_behind ..

/-- A link that is open breaks off at a token that can neither go on with it nor close it. -/
theorem breaks_link {opening : Token} {inside : List Token} (hopening : opening.kind = .linkOpen)
    (hinside : OpenSegments inside) (htext : ∀ token ∈ stuck.head?, token.kind.isLinkText = false)
    (hends : Derives .segments inside → ∀ token ∈ stuck.head?,
      token.kind ≠ .linkArrow ∧ token.kind ≠ .linkClose) :
    Breaks source (opening :: (inside ++ stuck)) stuck := by
  have hkind : ∀ token ∈ (opening :: (inside ++ stuck)).head?, token.kind = .linkOpen := by
    rintro token ⟨⟩
    exact hopening
  have hshorter : stuck.length < (opening :: (inside ++ stuck)).length := length_lt_behind ..
  refine ⟨?_, hshorter, fun token hmem => .inr (.inl (hkind token hmem))⟩
  intro level size call hook hstanding hsize
  rcases hstanding.failed_others hsize hkind with ⟨hcall, _, hhook⟩
  have hlink := failed_map (failed_link source hopening hinside htext hends) Sketch.link
  have hrunning := failed_running level (not_isRun_of_head hkind rfl)
  have hlast := failed_orElse (hhook (by decide)) hrunning (Nat.le_refl _)
  have hothers := failed_orElse_left hlink hlast hshorter
  exact failed_orElse (hcall (by decide)) hothers (Nat.le_of_lt hshorter)

/-- Where the phrases of a level end that are complete: in front of a phrase that breaks off, or of what
stands in the way itself. -/
inductive StopsAt (source : String) (level : Level) (tokens stuck : List Token) : Prop where
  | breaks (h : Breaks source tokens stuck)
  | closes (hsame : tokens = stuck)
      (h : ∀ token ∈ stuck.head?, token.kind = .linkClose ∨ token.kind = .hookClose ∧ level = .passage)

theorem StopsAt.failed {level : Level} (h : StopsAt source level tokens stuck) {size : Nat}
    {call : Rule Sketch} {hook : Rule (List Sketch)} (hstanding : Standing source size call hook)
    (hsize : tokens.length ≤ size) :
    Grammar.anyOf source call hook level.running tokens = .failed stuck := by
  cases h with
  | breaks h => exact h.failed hstanding hsize
  | closes hsame h =>
      subst hsame
      exact hstanding.failed_closing level hsize fun token hmem => (h token hmem).imp_right And.left

theorem StopsAt.beyond {level : Level} (h : StopsAt source level tokens stuck) :
    stuck.length < tokens.length ∨ tokens = stuck := by
  cases h with
  | breaks h => exact .inl h.shorter
  | closes hsame _ => exact .inr hsame

theorem StopsAt.length_le {level : Level} (h : StopsAt source level tokens stuck) :
    stuck.length ≤ tokens.length :=
  length_le_of_beyond h.beyond

/-- Inside a hook, what phrases stop at does not close the hook. -/
theorem StopsAt.not_hookClose (h : StopsAt source .hook tokens stuck) :
    ∀ token ∈ tokens.head?, token.kind ≠ .hookClose := by
  intro token hmem hkind
  cases h with
  | breaks h => simpa [hkind] using h.opens token hmem
  | closes hsame h =>
      subst hsame
      simpa [hkind] using h token hmem

/-- The phrases of a level that are complete, up to where they stop. -/
structure PhrasesStop (source : String) (level : Level) (phrases : List Phrase)
    (tail stuck : List Token) : Prop where
  fits : FitsAll level phrases
  apart : ApartAll phrases
  ends : ∀ last ∈ phrases.getLast?, last.EndsAt level tail
  stops : StopsAt source level tail stuck

/-- The rules take the phrases that are complete and stall where these stop. -/
theorem PhrasesStop.loops {level : Level} {phrases : List Phrase} {tail : List Token}
    (h : PhrasesStop source level phrases tail stuck) {size : Nat} {call : Rule Sketch}
    {hook : Rule (List Sketch)} (hstanding : Standing source size call hook)
    (hsize : (yieldAll phrases ++ tail).length ≤ size) :
    Loops (Grammar.anyOf source call hook level.running) stuck (yieldAll phrases ++ tail)
      (sketchAll source phrases) tail := by
  have htail : tail.length ≤ size := by
    rw [List.length_append] at hsize
    omega
  exact loops_phrases h.fits h.apart h.ends hstanding hsize (h.stops.failed hstanding htail)
    h.stops.length_le

/-- A hook whose phrases stop before it is closed. -/
structure OpenHookAt (source : String) (opening : Token) (children : List Phrase)
    (tail stuck : List Token) : Prop extends PhrasesStop source .hook children tail stuck where
  opening : opening.kind = .hookOpen

variable {opening : Token} {children : List Phrase} {tail : List Token}

theorem OpenHookAt.shorter (h : OpenHookAt source opening children tail stuck) :
    stuck.length < (opening :: (yieldAll children ++ tail)).length :=
  Nat.lt_of_le_of_lt h.stops.length_le (length_lt_behind ..)

/-- The rule of a hook fails where the phrases in the hook do. -/
theorem OpenHookAt.failed (h : OpenHookAt source opening children tail stuck) {size : Nat}
    {call : Rule Sketch} {hook : Rule (List Sketch)} (hstanding : Standing source size call hook)
    (hsize : (opening :: (yieldAll children ++ tail)).length ≤ size) :
    hook (opening :: (yieldAll children ++ tail)) = .failed stuck := by
  have hloops := h.toPhrasesStop.loops (hstanding.inHook hsize) (Nat.le_refl _)
  have hchildren := (yields_kind h.opening).andThen_stalls hloops.stalls_many
  rw [hstanding.hook_agrees _ hsize, hook_eq]
  exact failed_map (hchildren.failed_andThen (failed_kind h.stops.not_hookClose) h.stops.beyond) _

/-- A hook that is open breaks off where the phrases in it do. -/
theorem breaks_hook (h : OpenHookAt source opening children tail stuck) :
    Breaks source (opening :: (yieldAll children ++ tail)) stuck := by
  have hkind : ∀ token ∈ (opening :: (yieldAll children ++ tail)).head?, token.kind = .hookOpen := by
    rintro token ⟨⟩
    exact h.opening
  refine ⟨?_, h.shorter, fun token hmem => .inr (.inr (hkind token hmem))⟩
  intro level size call hook hstanding hsize
  rcases hstanding.failed_others hsize hkind with ⟨hcall, hlink, _⟩
  have hhook := failed_map (h.failed hstanding hsize) Sketch.hook
  have hrunning := failed_running level (not_isRun_of_head hkind rfl)
  have hle := Nat.le_of_lt h.shorter
  have hothers := failed_orElse (hlink (by decide)) (failed_orElse_left hhook hrunning h.shorter) hle
  exact failed_orElse (hcall (by decide)) hothers hle

/-- A call whose hook is open breaks off where the phrases in the hook do: the call is not taken without its
hook. -/
theorem breaks_hooked {text : CallText} (hfits : text.Fits)
    (h : OpenHookAt source opening children tail stuck) :
    Breaks source (text.yield ++ opening :: (yieldAll children ++ tail)) stuck := by
  have hshorter := h.shorter
  rcases hfits with ⟨hhead, hbody, hclosing⟩
  rw [yield_append]
  have hinner : (opening :: (yieldAll children ++ tail)).length <
      (text.body ++ text.closing :: opening :: (yieldAll children ++ tail)).length :=
    Nat.lt_of_succ_lt_succ (length_lt_behind text.head text.body (text.closing :: _))
  apply breaks_of_call hhead
  · have hstands := standing_inCall source text.head (Nat.le_of_lt hinner)
    have hhook := failed_map (h.failed hstands (Nat.le_refl _)) some
    have hunlike : (Rule.kind .hookOpen).unlike.rewind (opening :: (yieldAll children ++ tail)) = .failed _ :=
      failed_unlike_rewind fun _ => ⟨_, _, (yields_kind h.opening).takes⟩
    have hend : Rule.atEnd (opening :: (yieldAll children ++ tail)) = .failed _ := rfl
    have hnone := failed_orElse (failed_map hunlike fun _ => (none : Option (List Sketch)))
      (failed_map hend fun _ => none) (Nat.le_refl _)
    have hattached := failed_orElse_left hhook hnone hshorter
    have harguments := yields_arguments hbody hclosing (opening :: (yieldAll children ++ tail))
    rw [call_eq]
    exact failed_map (((yields_kind hhead).andThen harguments).failed_andThen hattached
      (Nat.le_of_lt hshorter)) _
  · exact Nat.lt_trans hshorter (Nat.lt_succ_of_lt hinner)

end Broken

end PassageMarkup
