/-
Module: PassageMarkup.Proofs.ShapeErrors
Layer: Proofs
Purpose: When a passage is refused for the arguments of a call, and for which call. Making nodes checks the
  calls one after the other, a call before the inside of its hook, and stops at the first that fails. The
  order of checking is the order of the passage, because the heads of the calls are a part of the tokens
  in their order; so the call that is reported is the leftmost of all that break the catalog. Nodes are
  made of complete phrases only, hence an error of the grammar is reported before any call is checked.
Imports: Proofs.CallSpelling, Proofs.ViablePrefix
Main exports: failure?, Phrase.calls, callsOf, CallText.Breaks, LeftmostBreak, failure?_nodesOf,
  pairwise_callsOf, leftmostBreak_iff, ReportsLeftmost, parse_callShape_iff_leftmost
-/
import PassageMarkup.Proofs.CallSpelling
import PassageMarkup.Proofs.ViablePrefix

namespace PassageMarkup

open Text

/-! ### Failures of a sequence -/

/-- Why a computation fails, if it does. -/
def failure? {ε α : Type} : Except ε α → Option ε
  | .ok _ => none
  | .error e => some e

theorem failure?_eq_some {ε α : Type} {result : Except ε α} {e : ε} :
    failure? result = some e ↔ result = .error e := by
  cases result <;> simp [failure?]

/-- What is done with a result does not make a computation fail. -/
theorem failure?_bind_pure {ε α β : Type} (first : Except ε α) (f : α → β) :
    failure? (first >>= fun a => pure (f a)) = failure? first := by
  cases first <;> rfl

/-- Of two computations, neither of which needs the other, the first failure counts. -/
theorem failure?_bind_bind {ε α β γ : Type} (first : Except ε α) (second : Except ε β)
    (f : α → β → γ) :
    failure? (first >>= fun a => second >>= fun b => pure (f a b)) =
      (failure? first).or (failure? second) := by
  cases first with
  | error e => rfl
  | ok a => exact failure?_bind_pure second (f a)

/-! ### The calls of a passage -/

mutual

/-- The calls of a phrase in the order of the passage. Calls among the arguments of a call belong to its
body and do not count. -/
def Phrase.calls : Phrase → List CallText
  | .prose _ | .value _ | .link _ _ _ => []
  | .hook _ children _ => callsOf children
  | .call text => [text]
  | .hooked text _ children _ => text :: callsOf children

/-- The calls of phrases, at any depth, in the order of the passage. -/
def callsOf : List Phrase → List CallText
  | [] => []
  | phrase :: rest => phrase.calls ++ callsOf rest

end

/-- The catalog knows a call by its name and refuses its arguments. -/
structure CallText.Breaks (catalog : Catalog) (call : CallText) (mismatch : Mismatch) : Prop where
  known : ∃ pattern, catalog.get? call.name = some pattern
  refused : catalog.check call.name (Arguments.ofTokens call.body) = .error mismatch

/-- A call that breaks the catalog while every other one that does starts further to the right. -/
structure LeftmostBreak (catalog : Catalog) (calls : List CallText) (call : CallText)
    (mismatch : Mismatch) : Prop where
  mem : call ∈ calls
  breaks : call.Breaks catalog mismatch
  least : ∀ other ∈ calls, other ≠ call → (∃ reason, other.Breaks catalog reason) →
    call.head.start < other.head.start

/-- A name that the catalog does not know is never refused. -/
theorem breaks_of_refused {catalog : Catalog} {call : CallText} {mismatch : Mismatch}
    (h : catalog.check call.name (Arguments.ofTokens call.body) = .error mismatch) :
    call.Breaks catalog mismatch := by
  refine ⟨?_, h⟩
  cases hget : catalog.get? call.name with
  | none =>
      rw [Catalog.check, hget] at h
      cases h
  | some pattern => exact ⟨pattern, rfl⟩

/-- The error that a call which breaks the catalog gives rise to. -/
def CallText.shapeError (source : String) (call : CallText) (mismatch : Mismatch) : ParseError :=
  .callShape call.name mismatch call.head.start (fragmentAt source call.head.start)

/-- Checking a call fails exactly if the call breaks the catalog. -/
theorem failure?_check {source : String} {catalog : Catalog} {call : CallText} {e : ParseError} :
    failure? (call.check source catalog) = some e ↔
      ∃ mismatch, call.Breaks catalog mismatch ∧ e = call.shapeError source mismatch := by
  rw [CallText.check]
  cases hcheck : catalog.check call.name (Arguments.ofTokens call.body) with
  | ok pattern =>
      constructor
      · intro h
        cases h
      · rintro ⟨mismatch, hbreaks, _⟩
        rw [hbreaks.refused] at hcheck
        cases hcheck
  | error mismatch =>
      constructor
      · intro h
        cases h
        exact ⟨mismatch, breaks_of_refused hcheck, rfl⟩
      · rintro ⟨reason, hbreaks, rfl⟩
        rw [hbreaks.refused] at hcheck
        cases hcheck
        rfl

section Order

variable (source : String) (catalog : Catalog)

mutual

/-- Making the nodes of a phrase fails with the first of its calls that fails. -/
theorem failure?_nodes : ∀ phrase : Phrase, failure? (phrase.nodes source catalog) =
    phrase.calls.findSome? fun call => failure? (call.check source catalog)
  | .prose _ => rfl
  | .value _ => rfl
  | .link _ _ _ => rfl
  | .hook _ children _ => by
      rw [Phrase.nodes, failure?_bind_pure, failure?_nodesOf children, Phrase.calls]
  | .call text => by
      rw [Phrase.nodes, failure?_bind_pure, Phrase.calls, List.findSome?_singleton]
  | .hooked text _ children _ => by
      rw [Phrase.nodes, failure?_bind_bind, failure?_nodesOf children, Phrase.calls,
        List.findSome?_cons]
      cases failure? (text.check source catalog) <;> rfl

/-- Making the nodes of phrases fails with the first call that fails. -/
theorem failure?_nodesOf : ∀ phrases : List Phrase, failure? (nodesOf source catalog phrases) =
    (callsOf phrases).findSome? fun call => failure? (call.check source catalog)
  | [] => rfl
  | phrase :: rest => by
      rw [nodesOf, failure?_bind_bind, failure?_nodes phrase, failure?_nodesOf rest, callsOf,
        List.findSome?_append]

end

end Order

/-! ### The order of the calls -/

mutual

/-- The heads of the calls of a phrase are some of its tokens, in their order. -/
theorem heads_sublist_yield : ∀ phrase : Phrase,
    (phrase.calls.map CallText.head).Sublist phrase.yield
  | .prose _ | .value _ | .link _ _ _ => List.nil_sublist _
  | .hook opening children closing => by
      rw [Phrase.calls, Phrase.yield]
      apply List.Sublist.cons
      exact (heads_sublist_yieldAll children).trans (List.sublist_append_left _ _)
  | .call text => by
      rw [Phrase.calls, Phrase.yield, CallText.yield]
      exact List.Sublist.cons_cons _ (List.nil_sublist _)
  | .hooked text opening children closing => by
      have htext : [text.head].Sublist text.yield := List.Sublist.cons_cons _ (List.nil_sublist _)
      have hchildren : ((callsOf children).map CallText.head).Sublist
          (opening :: (yieldAll children ++ [closing])) := by
        apply List.Sublist.cons
        exact (heads_sublist_yieldAll children).trans (List.sublist_append_left _ _)
      rw [Phrase.calls, Phrase.yield, List.append_assoc]
      exact htext.append hchildren

theorem heads_sublist_yieldAll : ∀ phrases : List Phrase,
    ((callsOf phrases).map CallText.head).Sublist (yieldAll phrases)
  | [] => List.Sublist.slnil
  | phrase :: rest => by
      rw [callsOf, List.map_append, yieldAll]
      exact (heads_sublist_yield phrase).append (heads_sublist_yieldAll rest)

end

/-- The calls of a passage start further and further to the right. -/
theorem pairwise_callsOf {source : String} {phrases : List Phrase}
    (hyield : yieldAll phrases = tokensOf source) :
    (callsOf phrases).Pairwise fun first second => first.head.start < second.head.start := by
  have htiles := tiles_tokensOf source
  have hstarts : (tokensOf source).Pairwise fun first second => first.start < second.start := by
    refine htiles.pairwise.imp_of_mem ?_
    intro first second hfirst _ hle
    have hlt := (htiles.start_lt_stop first hfirst).2
    omega
  have hheads : ((callsOf phrases).map CallText.head).Pairwise fun first second =>
      first.start < second.start := by
    refine hstarts.sublist ?_
    rw [← hyield]
    exact heads_sublist_yieldAll phrases
  rwa [List.pairwise_map] at hheads

/-- Among calls that start further and further to the right, the first to break the catalog is the
leftmost one. -/
theorem leftmostBreak_iff {source : String} {catalog : Catalog} {calls : List CallText}
    {e : ParseError}
    (hcalls : calls.Pairwise fun first second => first.head.start < second.head.start) :
    (calls.findSome? fun call => failure? (call.check source catalog)) = some e ↔
      ∃ call mismatch, LeftmostBreak catalog calls call mismatch ∧
        e = call.shapeError source mismatch := by
  constructor
  · intro h
    rcases List.findSome?_eq_some_iff.1 h with ⟨before, call, behind, rfl, hcall, hbefore⟩
    rcases failure?_check.1 hcall with ⟨mismatch, hbreaks, rfl⟩
    refine ⟨call, mismatch, ⟨by simp, hbreaks, ?_⟩, rfl⟩
    rintro other hmem hne ⟨reason, hother⟩
    rcases List.mem_append.1 hmem with hfront | hback
    · -- a call in front of the first that fails does not fail
      have hfails : failure? (other.check source catalog) = some _ :=
        failure?_check.2 ⟨reason, hother, rfl⟩
      rw [hbefore other hfront] at hfails
      cases hfails
    · rcases List.mem_cons.1 hback with rfl | hback
      · exact absurd rfl hne
      · exact List.rel_of_pairwise_cons (List.pairwise_append.1 hcalls).2.1 hback
  · rintro ⟨call, mismatch, hleftmost, rfl⟩
    rcases List.append_of_mem hleftmost.mem with ⟨before, behind, rfl⟩
    refine List.findSome?_eq_some_iff.2 ⟨before, call, behind, rfl,
      failure?_check.2 ⟨mismatch, hleftmost.breaks, rfl⟩, ?_⟩
    intro other hmem
    have hlt : other.head.start < call.head.start :=
      (List.pairwise_append.1 hcalls).2.2 other hmem call List.mem_cons_self
    cases hfails : failure? (other.check source catalog) with
    | none => rfl
    | some e =>
        rcases failure?_check.1 hfails with ⟨reason, hother, _⟩
        have hne : other ≠ call := by
          rintro rfl
          exact Nat.lt_irrefl _ hlt
        have hgt := hleftmost.least other (List.mem_append_left _ hmem) hne ⟨reason, hother⟩
        omega

/-- Some call breaks the catalog exactly if a leftmost one does. -/
theorem exists_leftmostBreak_iff {catalog : Catalog} {calls : List CallText}
    (hcalls : calls.Pairwise fun first second => first.head.start < second.head.start) :
    (∃ call mismatch, LeftmostBreak catalog calls call mismatch) ↔
      ∃ call ∈ calls, ∃ mismatch, call.Breaks catalog mismatch := by
  constructor
  · rintro ⟨call, mismatch, hleftmost⟩
    exact ⟨call, hleftmost.mem, mismatch, hleftmost.breaks⟩
  · rintro ⟨call, hmem, mismatch, hbreaks⟩
    cases hfind : calls.findSome? fun call => failure? (call.check "" catalog) with
    | none =>
        have hnone := List.findSome?_eq_none_iff.1 hfind call hmem
        rw [failure?_check.2 ⟨mismatch, hbreaks, rfl⟩] at hnone
        cases hnone
    | some e =>
        rcases (leftmostBreak_iff hcalls).1 hfind with ⟨first, reason, hleftmost, _⟩
        exact ⟨first, reason, hleftmost⟩

/-! ### The error -/

section Calls

variable {tokens : List Token}

mutual

/-- The calls of a phrase fit the grammar, and their tokens are among those of the phrase. -/
theorem fits_of_mem_calls {level : Level} : ∀ {phrase : Phrase}, phrase.Fits level →
    phrase.yield <:+: tokens → ∀ call ∈ phrase.calls, call.Fits ∧ call.yield <:+: tokens
  | .prose _, _, _, call, hmem | .value _, _, _, call, hmem | .link _ _ _, _, _, call, hmem => by
      cases hmem
  | .hook opening children closing, hfits, hpart, call, hmem => by
      exact fits_of_mem_callsOf hfits.2.1 (inside_part_hook.trans hpart) call hmem
  | .call text, hfits, hpart, call, hmem => by
      rw [Phrase.calls, List.mem_singleton] at hmem
      exact hmem ▸ ⟨hfits, hpart⟩
  | .hooked text opening children closing, hfits, hpart, call, hmem => by
      rcases List.mem_cons.1 hmem with rfl | hmem
      · exact ⟨hfits.1, call_part_hooked.trans hpart⟩
      · exact fits_of_mem_callsOf hfits.2.2.1 (inside_part_hooked.trans hpart) call hmem

theorem fits_of_mem_callsOf {level : Level} : ∀ {phrases : List Phrase}, FitsAll level phrases →
    yieldAll phrases <:+: tokens → ∀ call ∈ callsOf phrases, call.Fits ∧ call.yield <:+: tokens
  | [], _, _, call, hmem => by cases hmem
  | phrase :: rest, hfits, hpart, call, hmem => by
      rcases List.mem_append.1 hmem with hmem | hmem
      · exact fits_of_mem_calls hfits.1 (first_part_yieldAll.trans hpart) call hmem
      · exact fits_of_mem_callsOf hfits.2 (rest_part_yieldAll.trans hpart) call hmem

end

end Calls

/-- A passage whose phrases can be read is refused exactly if making their nodes fails, and then for
that reason. -/
theorem failure?_parse {source : String} {catalog : Catalog} {phrases : List Phrase}
    (h : readPhrases (tokensOf source) = .ok phrases) :
    failure? (parse catalog source) = failure? (nodesOf source catalog phrases) := by
  rw [parse_eq, phrasesOf_eq, h]
  exact failure?_bind_pure _ _

/-- An error of the grammar is never one of a call's arguments. -/
theorem toError_ne_callShape (source : String) (stop : Stop) (name : String) (mismatch : Mismatch)
    (offset : Nat) (fragment : String) :
    stop.toError source ≠ .callShape name mismatch offset fragment := by
  cases stop <;> simp [Stop.toError]

/-- The parts of an error about a call's arguments are those of the leftmost call that breaks the catalog:
its name and what does not fit, the byte offset at which it is spelled out, and the text there. -/
def ReportsLeftmost (catalog : Catalog) (source name : String) (mismatch : Mismatch) (offset : Nat)
    (fragment : String) : Prop :=
  ∃ phrases call, readPhrases (tokensOf source) = .ok phrases ∧
    LeftmostBreak catalog (callsOf phrases) call mismatch ∧ name = call.name ∧
    offset = call.head.start ∧ call.SpelledAt source ∧ fragment = fragmentAt source offset

/-- An error about a call's arguments is that of the leftmost call that breaks the catalog. -/
theorem reportsLeftmost_of_callShape {catalog : Catalog} {source name fragment : String}
    {mismatch : Mismatch} {offset : Nat}
    (h : parse catalog source = .error (.callShape name mismatch offset fragment)) :
    ReportsLeftmost catalog source name mismatch offset fragment := by
  cases hread : readPhrases (tokensOf source) with
  | error stop =>
      rw [parse_of_stop hread, Except.error.injEq] at h
      exact absurd h (toError_ne_callShape _ _ _ _ _ _)
  | ok phrases =>
      rcases readPhrases_fits hread with ⟨hfits, hyield⟩
      have hfails := failure?_eq_some.2 h
      rw [failure?_parse hread, failure?_nodesOf, leftmostBreak_iff (pairwise_callsOf hyield)]
        at hfails
      rcases hfails with ⟨call, reason, hleftmost, hsame⟩
      cases hsame
      have hpart : yieldAll phrases <:+: tokensOf source := hyield ▸ List.infix_refl _
      rcases fits_of_mem_callsOf hfits hpart call hleftmost.mem with ⟨hcall, hyields⟩
      exact ⟨phrases, call, hread, hleftmost, rfl, rfl, call.spelledAt hcall hyields, rfl⟩

/-- Where some call breaks the catalog, the passage is refused for the arguments of a call. -/
theorem exists_callShape_of_breaks {catalog : Catalog} {source : String} {phrases : List Phrase}
    (hread : readPhrases (tokensOf source) = .ok phrases)
    (hbreaks : ∃ call ∈ callsOf phrases, ∃ mismatch, call.Breaks catalog mismatch) :
    ∃ name mismatch offset fragment,
      parse catalog source = .error (.callShape name mismatch offset fragment) := by
  have hcalls := pairwise_callsOf (readPhrases_fits hread).2
  rcases (exists_leftmostBreak_iff hcalls).2 hbreaks with ⟨call, mismatch, hleftmost⟩
  have hfails : failure? (parse catalog source) = some (call.shapeError source mismatch) := by
    rw [failure?_parse hread, failure?_nodesOf]
    exact (leftmostBreak_iff hcalls).2 ⟨call, mismatch, hleftmost, rfl⟩
  exact ⟨_, _, _, _, failure?_eq_some.1 hfails⟩

/-- A passage is refused for the arguments of a call exactly if its phrases can be read to the end and
some call among them, at whatever depth, is known to the catalog and refused by it; the error then is that
of the leftmost such call. A passage that the grammar does not generate is refused with one and the same
error under every catalog, and never for the arguments of a call. -/
theorem parse_callShape_iff_leftmost (catalog : Catalog) (source : String) :
    ((∃ name mismatch offset fragment,
        parse catalog source = .error (.callShape name mismatch offset fragment)) ↔
      ∃ phrases, readPhrases (tokensOf source) = .ok phrases ∧
        ∃ call ∈ callsOf phrases, ∃ mismatch, call.Breaks catalog mismatch) ∧
    (∀ name mismatch offset fragment,
      parse catalog source = .error (.callShape name mismatch offset fragment) →
        ReportsLeftmost catalog source name mismatch offset fragment) ∧
    (¬ IsPassage (tokensOf source) → ∃ error, (∀ other, parse other source = .error error) ∧
      ∀ name mismatch offset fragment, error ≠ .callShape name mismatch offset fragment) := by
  refine ⟨⟨?_, ?_⟩, ?_, ?_⟩
  · rintro ⟨name, mismatch, offset, fragment, herror⟩
    rcases reportsLeftmost_of_callShape herror with ⟨phrases, call, hread, hleftmost, _⟩
    exact ⟨phrases, hread, call, hleftmost.mem, mismatch, hleftmost.breaks⟩
  · rintro ⟨phrases, hread, hbreaks⟩
    exact exists_callShape_of_breaks hread hbreaks
  · intro name mismatch offset fragment herror
    exact reportsLeftmost_of_callShape herror
  · intro hnot
    cases hread : readPhrases (tokensOf source) with
    | error stop => exact ⟨_, fun other => parse_of_stop hread, toError_ne_callShape _ _⟩
    | ok phrases => exact absurd (exists_readPhrases_iff.1 ⟨phrases, hread⟩) hnot

/-- Two calls break the catalog, the first of them inside a hook: it is the one that is reported. -/
theorem parse_callShape_iff_leftmost_inside :
    parse .builtin "(if: $a)[x (set: 1 to 2)] (set: 3)" =
        .error (.callShape "set" ⟨"variable", "number", some 0⟩ 11 "(set: 1 to 2)] (set: 3)") ∧
      ReportsLeftmost .builtin "(if: $a)[x (set: 1 to 2)] (set: 3)" "set"
        ⟨"variable", "number", some 0⟩ 11 "(set: 1 to 2)] (set: 3)" := by
  have herror : failure? (parse .builtin "(if: $a)[x (set: 1 to 2)] (set: 3)") =
      some (.callShape "set" ⟨"variable", "number", some 0⟩ 11 "(set: 1 to 2)] (set: 3)") := by
    decide +kernel
  rw [failure?_eq_some] at herror
  exact ⟨herror, (parse_callShape_iff_leftmost .builtin _).2.1 _ _ _ _ herror⟩

end PassageMarkup
