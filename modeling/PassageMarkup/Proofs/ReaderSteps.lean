/-
Module: PassageMarkup.Proofs.ReaderSteps
Layer: Proofs
Purpose: What one token can do to the state of reading, and what a list of tokens can. The step function
  is put into a relation with one rule for each thing that can happen, guards included; every invariant
  of reading is then a case analysis of these rules, and the step function is not opened again. Reading
  a whole list is the relation's iteration: it either takes all tokens, or stops in front of the first
  one that no rule takes.
Imports: Grammar.Reader, Proofs.Derivation
Main exports: levelOf, Steps, step_eq_some_iff, Reads, reads_or_stops, readFrom_of_reads_all,
  readFrom_of_stopped, readFrom_eq_ok_iff
-/
import PassageMarkup.Grammar.Reader
import PassageMarkup.Proofs.Derivation

namespace PassageMarkup

/-- The level on which reading takes place, given the open hooks. -/
def levelOf : List OpenHook → Level
  | [] => .passage
  | _ :: _ => .hook

/-- What a token does to the state of reading. -/
inductive Steps : Reader → Token → Reader → Prop where
  /-- A hook right behind a call is attached to it. -/
  | attach {hooks : List OpenHook} {phrases : List Phrase} {call : CallText} {token : Token}
      (hkind : token.kind = .hookOpen) :
      Steps ⟨hooks, phrases, .called call⟩ token ⟨⟨some call, token, phrases⟩ :: hooks, [], .prose []⟩
  /-- Any other token ends the call, and is taken as between phrases. -/
  | detach {hooks : List OpenHook} {phrases : List Phrase} {call : CallText} {token : Token}
      {next : Reader} (hkind : token.kind ≠ .hookOpen)
      (hstep : Steps ⟨hooks, .call call :: phrases, .prose []⟩ token next) :
      Steps ⟨hooks, phrases, .called call⟩ token next
  | openHook {hooks : List OpenHook} {phrases : List Phrase} {run : List Token} {token : Token}
      (hkind : token.kind = .hookOpen) :
      Steps ⟨hooks, phrases, .prose run⟩ token
        ⟨⟨none, token, endRun run phrases⟩ :: hooks, [], .prose []⟩
  | openLink {hooks : List OpenHook} {phrases : List Phrase} {run : List Token} {token : Token}
      (hkind : token.kind = .linkOpen) :
      Steps ⟨hooks, phrases, .prose run⟩ token ⟨hooks, endRun run phrases, .linking token []⟩
  | openCall {hooks : List OpenHook} {phrases : List Phrase} {run : List Token} {token : Token}
      (hkind : token.kind = .callHead) :
      Steps ⟨hooks, phrases, .prose run⟩ token ⟨hooks, endRun run phrases, .calling token 0 []⟩
  | closeHook {hook : OpenHook} {outer : List OpenHook} {phrases : List Phrase} {run : List Token}
      {token : Token} (hkind : token.kind = .hookClose) :
      Steps ⟨hook :: outer, phrases, .prose run⟩ token
        ⟨outer, hook.close (endRun run phrases).reverse token :: hook.before, .prose []⟩
  | value {hook : OpenHook} {outer : List OpenHook} {phrases : List Phrase} {run : List Token}
      {token : Token} (hkind : token.kind = .string ∨ token.kind = .variable) :
      Steps ⟨hook :: outer, phrases, .prose run⟩ token
        ⟨hook :: outer, .value token :: endRun run phrases, .prose []⟩
  | text {hooks : List OpenHook} {phrases : List Phrase} {run : List Token} {token : Token}
      (hkind : (levelOf hooks).isRun token.kind = true) :
      Steps ⟨hooks, phrases, .prose run⟩ token ⟨hooks, phrases, .prose (token :: run)⟩
  | nest {hooks : List OpenHook} {phrases : List Phrase} {head : Token} {inner : Nat}
      {body : List Token} {token : Token} (hkind : token.kind = .callHead) :
      Steps ⟨hooks, phrases, .calling head inner body⟩ token
        ⟨hooks, phrases, .calling head (inner + 1) (token :: body)⟩
  | unnest {hooks : List OpenHook} {phrases : List Phrase} {head : Token} {inner : Nat}
      {body : List Token} {token : Token} (hkind : token.kind = .closeParen) :
      Steps ⟨hooks, phrases, .calling head (inner + 1) body⟩ token
        ⟨hooks, phrases, .calling head inner (token :: body)⟩
  | plain {hooks : List OpenHook} {phrases : List Phrase} {head : Token} {inner : Nat}
      {body : List Token} {token : Token} (hbracket : token.kind.isBracket = false)
      (hhead : token.kind ≠ .callHead) (hclosing : token.kind ≠ .closeParen) :
      Steps ⟨hooks, phrases, .calling head inner body⟩ token
        ⟨hooks, phrases, .calling head inner (token :: body)⟩
  | closeCall {hooks : List OpenHook} {phrases : List Phrase} {head : Token} {body : List Token}
      {token : Token} (hkind : token.kind = .closeParen) :
      Steps ⟨hooks, phrases, .calling head 0 body⟩ token
        ⟨hooks, phrases, .called ⟨head, body.reverse, token⟩⟩
  | linkText {hooks : List OpenHook} {phrases : List Phrase} {opening : Token} {inside : List Token}
      {token : Token} (hkind : token.kind.isLinkText = true) :
      Steps ⟨hooks, phrases, .linking opening inside⟩ token
        ⟨hooks, phrases, .linking opening (token :: inside)⟩
  | arrow {hooks : List OpenHook} {phrases : List Phrase} {opening : Token} {inside : List Token}
      {token : Token} (hawaits : awaitsSegment inside = false) (hkind : token.kind = .linkArrow) :
      Steps ⟨hooks, phrases, .linking opening inside⟩ token
        ⟨hooks, phrases, .linking opening (token :: inside)⟩
  | closeLink {hooks : List OpenHook} {phrases : List Phrase} {opening : Token} {inside : List Token}
      {token : Token} (hawaits : awaitsSegment inside = false) (hkind : token.kind = .linkClose) :
      Steps ⟨hooks, phrases, .linking opening inside⟩ token
        ⟨hooks, .link opening inside.reverse token :: phrases, .prose []⟩

/-! ### The rules are the step function -/

/-- A kind that starts and ends no phrase is running text on every level. -/
theorem isRun_of_ne (level : Level) {kind : Kind} (hhookOpen : kind ≠ .hookOpen)
    (hlinkOpen : kind ≠ .linkOpen) (hcallHead : kind ≠ .callHead) (hlinkClose : kind ≠ .linkClose)
    (hhookClose : kind ≠ .hookClose) (hvariable : kind ≠ .variable) (hstring : kind ≠ .string) :
    level.isRun kind = true := by
  cases level <;> cases kind <;> first | rfl | contradiction

theorem steps_of_value {hooks : List OpenHook} {phrases : List Phrase} {run : List Token}
    {token : Token} {next : Reader} (hkind : token.kind = .string ∨ token.kind = .variable)
    (h : stepBetween hooks phrases run token = some next) :
    Steps ⟨hooks, phrases, .prose run⟩ token next := by
  cases hooks with
  | nil =>
      have hnext : ⟨[], phrases, .prose (token :: run)⟩ = next := by
        rcases hkind with hkind | hkind <;> simpa [stepBetween, hkind] using h
      rw [← hnext]
      refine .text ?_
      rcases hkind with hkind | hkind <;> rw [hkind] <;> rfl
  | cons hook outer =>
      have hnext : ⟨hook :: outer, .value token :: endRun run phrases, .prose []⟩ = next := by
        rcases hkind with hkind | hkind <;> simpa [stepBetween, hkind] using h
      rw [← hnext]
      exact .value hkind

theorem steps_of_stepBetween {hooks : List OpenHook} {phrases : List Phrase} {run : List Token}
    {token : Token} {next : Reader} (h : stepBetween hooks phrases run token = some next) :
    Steps ⟨hooks, phrases, .prose run⟩ token next := by
  by_cases hvalue : token.kind = .string ∨ token.kind = .variable
  · exact steps_of_value hvalue h
  · obtain ⟨hstring, hvariable⟩ := not_or.1 hvalue
    unfold stepBetween at h
    split at h
    · next hkind =>
      cases h
      exact .openHook hkind
    · next hkind =>
      cases h
      exact .openLink hkind
    · next hkind =>
      cases h
      exact .openCall hkind
    · cases h
    · next hkind =>
      cases hooks with
      | nil => cases h
      | cons hook outer =>
          cases h
          exact .closeHook hkind
    · next hkind => exact absurd hkind hvariable
    · next hkind => exact absurd hkind hstring
    · cases h
      exact .text (isRun_of_ne _ ‹_› ‹_› ‹_› ‹_› ‹_› hvariable hstring)

/-- Inside a call any token but a bracket, a head or a closing parenthesis is simply taken. -/
theorem stepCall_of_ne {head : Token} {inner : Nat} {body : List Token} {token : Token}
    (hhead : token.kind ≠ .callHead) (hclosing : token.kind ≠ .closeParen) :
    stepCall head inner body token =
      if token.kind.isBracket then none else some (.calling head inner (token :: body)) := by
  unfold stepCall
  split
  · next hkind => exact absurd hkind hhead
  · next hkind => exact absurd hkind hclosing
  · next hkind => exact absurd hkind hclosing
  · rfl

theorem steps_of_stepCall {hooks : List OpenHook} {phrases : List Phrase} {head : Token} {inner : Nat}
    {body : List Token} {token : Token} {reading : Reading}
    (h : stepCall head inner body token = some reading) :
    Steps ⟨hooks, phrases, .calling head inner body⟩ token ⟨hooks, phrases, reading⟩ := by
  by_cases hhead : token.kind = .callHead
  · simp only [stepCall, hhead, Option.some.injEq] at h
    rw [← h]
    exact .nest hhead
  by_cases hclosing : token.kind = .closeParen
  · cases inner with
    | zero =>
        simp only [stepCall, hclosing, Option.some.injEq] at h
        rw [← h]
        exact .closeCall hclosing
    | succ outer =>
        simp only [stepCall, hclosing, Option.some.injEq] at h
        rw [← h]
        exact .unnest hclosing
  · rw [stepCall_of_ne hhead hclosing] at h
    split at h
    · cases h
    · next hbracket =>
      cases h
      exact .plain (by simpa using hbracket) hhead hclosing

/-- Every step of reading follows one of the rules. -/
theorem steps_of_step {reader next : Reader} {token : Token} (h : reader.step token = some next) :
    Steps reader token next := by
  obtain ⟨hooks, phrases, reading⟩ := reader
  unfold Reader.step at h
  cases reading with
  | prose run => exact steps_of_stepBetween h
  | called call =>
      simp only at h
      split at h
      · next hkind =>
        cases h
        exact .attach hkind
      · next hkind => exact .detach hkind (steps_of_stepBetween h)
  | calling head inner body =>
      obtain ⟨reading, hreading, rfl⟩ := Option.map_eq_some_iff.1 h
      exact steps_of_stepCall hreading
  | linking opening inside =>
      simp only at h
      split at h
      · next hkind =>
        cases h
        exact .linkText hkind
      · split at h
        · cases h
        · next hawaits =>
          have hawaits : awaitsSegment inside = false := by simpa using hawaits
          split at h
          · next hkind =>
            cases h
            exact .arrow hawaits hkind
          · next hkind =>
            cases h
            exact .closeLink hawaits hkind
          · cases h

/-- Running text is taken between phrases, on whatever level. -/
theorem stepBetween_of_isRun {hooks : List OpenHook} {phrases : List Phrase} {run : List Token}
    {token : Token} (h : (levelOf hooks).isRun token.kind = true) :
    stepBetween hooks phrases run token = some ⟨hooks, phrases, .prose (token :: run)⟩ := by
  unfold stepBetween
  cases hooks with
  | nil => cases hkind : token.kind <;> rw [hkind] at h <;> first | rfl | cases h
  | cons hook outer => cases hkind : token.kind <;> rw [hkind] at h <;> first | rfl | cases h

/-- The rules are exactly the steps of reading. -/
theorem step_eq_some_iff {reader next : Reader} {token : Token} :
    reader.step token = some next ↔ Steps reader token next := by
  refine ⟨steps_of_step, ?_⟩
  intro h
  induction h with
  | attach hkind => simp [Reader.step, hkind]
  | detach hkind _ ih => simpa [Reader.step, hkind] using ih
  | openHook hkind => simp [Reader.step, stepBetween, hkind]
  | openLink hkind => simp [Reader.step, stepBetween, hkind]
  | openCall hkind => simp [Reader.step, stepBetween, hkind]
  | closeHook hkind => simp [Reader.step, stepBetween, hkind]
  | value hkind => rcases hkind with hkind | hkind <;> simp [Reader.step, stepBetween, hkind]
  | text hkind => exact stepBetween_of_isRun hkind
  | nest hkind => simp [Reader.step, stepCall, hkind]
  | unnest hkind => simp [Reader.step, stepCall, hkind]
  | plain hbracket hhead hclosing =>
      simp [Reader.step, stepCall_of_ne hhead hclosing, hbracket]
  | closeCall hkind => simp [Reader.step, stepCall, hkind]
  | linkText hkind => simp [Reader.step, hkind]
  | arrow hawaits hkind => simp [Reader.step, hawaits, hkind, Kind.isLinkText]
  | closeLink hawaits hkind => simp [Reader.step, hawaits, hkind, Kind.isLinkText, Kind.isBracket]

/-! ### Reading several tokens -/

/-- What tokens do to the state of reading, one after the other. -/
inductive Reads : Reader → List Token → Reader → Prop where
  | nil {reader : Reader} : Reads reader [] reader
  | cons {reader next last : Reader} {token : Token} {tokens : List Token}
      (hstep : Steps reader token next) (hrest : Reads next tokens last) :
      Reads reader (token :: tokens) last

theorem Steps.reads {reader next : Reader} {token : Token} (h : Steps reader token next) :
    Reads reader [token] next :=
  .cons h .nil

theorem Reads.append {reader middle last : Reader} {first second : List Token}
    (hfirst : Reads reader first middle) (hsecond : Reads middle second last) :
    Reads reader (first ++ second) last := by
  induction hfirst with
  | nil => exact hsecond
  | cons hstep _ ih => exact .cons hstep (ih hsecond)

/-- Reading goes on from the state that the tokens read so far lead to. -/
theorem readFrom_of_reads {reader last : Reader} {first : List Token} (h : Reads reader first last)
    (rest : List Token) : readFrom reader (first ++ rest) = readFrom last rest := by
  induction h with
  | nil => rfl
  | cons hstep _ ih =>
      rw [List.cons_append, readFrom, step_eq_some_iff.2 hstep]
      exact ih

/-- Reading comes to the end of the tokens, or stops in front of the first that no rule takes. -/
theorem reads_or_stops (reader : Reader) (tokens : List Token) :
    (∃ last, Reads reader tokens last) ∨
      ∃ front token behind last, tokens = front ++ token :: behind ∧ Reads reader front last ∧
        last.step token = none := by
  induction tokens generalizing reader with
  | nil => exact .inl ⟨reader, .nil⟩
  | cons token tokens ih =>
      cases hstep : reader.step token with
      | none => exact .inr ⟨[], token, tokens, reader, rfl, .nil, hstep⟩
      | some next =>
          have hfirst : Steps reader token next := step_eq_some_iff.1 hstep
          rcases ih next with ⟨last, hlast⟩ | ⟨front, other, behind, last, rfl, hfront, hnone⟩
          · exact .inl ⟨last, .cons hfirst hlast⟩
          · exact .inr ⟨token :: front, other, behind, last, rfl, .cons hfirst hfront, hnone⟩

/-- Reading to the end answers what the last state finishes with. -/
theorem readFrom_of_reads_all {reader last : Reader} {tokens : List Token}
    (h : Reads reader tokens last) :
    readFrom reader tokens = match last.finish with
      | some phrases => .ok phrases
      | none => .error .atEnd := by
  rw [← List.append_nil tokens, readFrom_of_reads h]
  rfl

/-- Reading that is stopped by a token answers that token, as trailing if the passage is complete in
front of it. -/
theorem readFrom_of_stopped {reader last : Reader} {front behind : List Token} {token : Token}
    (h : Reads reader front last) (hnone : last.step token = none) :
    readFrom reader (front ++ token :: behind) =
      .error (if last.finish.isSome then .trailing token else .unexpected token) := by
  rw [readFrom_of_reads h, readFrom, hnone]

/-- Reading succeeds exactly if the tokens lead to a state that may end. -/
theorem readFrom_eq_ok_iff {reader : Reader} {tokens : List Token} {phrases : List Phrase} :
    readFrom reader tokens = .ok phrases ↔
      ∃ last, Reads reader tokens last ∧ last.finish = some phrases := by
  constructor
  · intro h
    rcases reads_or_stops reader tokens with
      ⟨last, hlast⟩ | ⟨front, token, behind, last, rfl, hfront, hnone⟩
    · refine ⟨last, hlast, ?_⟩
      rw [readFrom_of_reads_all hlast] at h
      cases hfinish : last.finish with
      | none =>
          rw [hfinish] at h
          cases h
      | some others =>
          rw [hfinish] at h
          cases h
          rfl
    · rw [readFrom_of_stopped hfront hnone] at h
      cases h
  · rintro ⟨last, hlast, hfinish⟩
    rw [readFrom_of_reads_all hlast, hfinish]

end PassageMarkup
