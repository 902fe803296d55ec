/-
Module: PassageMarkup.Proofs.RuleReading
Layer: Proofs
Purpose: The rules of ordered choice and the reader come to the same. Where the reader stops, everything in
  its state fits the grammar: the phrases of the outermost level are complete, and if a phrase is still being
  read, what stands of it breaks off there, whatever the rules try. So the rules take the same phrases, the
  item behind them fails where the reader stops, and a passage is parsed by way of its phrases.
Imports: Proofs.BrokenPhrases, Proofs.ReaderComplete, Proofs.Sketches
Main exports: Between.closing_of_refused, PhrasesStop.outward, exists_phrasesStop, items_of_ok,
  items_of_error, phrasesOf_eq, parse_eq
-/
import PassageMarkup.Proofs.BrokenPhrases
import PassageMarkup.Proofs.ReaderComplete
import PassageMarkup.Proofs.Sketches

namespace PassageMarkup

/-! ### What the reader refuses -/

section Refused

variable {token : Token} {reader : Reader}

theorem not_steps_of_refused (hnone : reader.step token = none) (next : Reader) :
    ¬ Steps reader token next := by
  intro hstep
  rw [step_eq_some_iff.2 hstep] at hnone
  cases hnone

/-- Between phrases only a closing bracket is refused, inside hooks only that of a link. -/
theorem Between.closing_of_refused {hooks : List OpenHook} (h : Between hooks reader)
    (hnone : reader.step token = none) :
    token.kind = .linkClose ∨ token.kind = .hookClose ∧ levelOf hooks = .passage := by
  have hrefused := not_steps_of_refused hnone
  by_cases hrun : (levelOf hooks).isRun token.kind = true
  · obtain ⟨next, hstep, _⟩ := h.step_text hrun
    exact absurd hstep (hrefused next)
  by_cases hvalue : token.kind = .string ∨ token.kind = .variable
  · cases hooks with
    | nil => rcases hvalue with hkind | hkind <;> rw [hkind] at hrun <;> exact absurd rfl hrun
    | cons hook outer =>
        obtain ⟨next, hstep, _⟩ := h.step_value hvalue
        exact absurd hstep (hrefused next)
  obtain ⟨hstring, hvariable⟩ := not_or.1 hvalue
  by_cases hopen : token.kind = .hookOpen
  · obtain ⟨_, next, hstep, _⟩ := h.step_hook hopen
    exact absurd hstep (hrefused next)
  by_cases hlink : token.kind = .linkOpen
  · obtain ⟨next, hstep, _⟩ := h.step_link hlink
    exact absurd hstep (hrefused next)
  by_cases hhead : token.kind = .callHead
  · obtain ⟨next, hstep, _⟩ := h.step_call hhead
    exact absurd hstep (hrefused next)
  by_cases hclose : token.kind = .hookClose
  · cases hooks with
    | nil => exact .inr ⟨hclose, rfl⟩
    | cons hook outer =>
        obtain ⟨next, hstep, _⟩ := h.step_closeHook hclose
        exact absurd hstep (hrefused next)
  by_contra hother
  have hlinkClose : token.kind ≠ .linkClose := fun hkind => hother (.inl hkind)
  exact hrun (isRun_of_ne _ hopen hlink hhead hlinkClose hclose hvariable hstring)

variable {hooks : List OpenHook} {phrases : List Phrase}

/-- Inside a call only a bracket is refused. -/
theorem isBracket_of_refused {head : Token} {inner : Nat} {body : List Token}
    (hnone : (Reader.mk hooks phrases (.calling head inner body)).step token = none) :
    token.kind.isBracket = true := by
  have hrefused := not_steps_of_refused hnone
  rw [← Bool.not_eq_false]
  intro hbracket
  by_cases hhead : token.kind = .callHead
  · exact hrefused _ (.nest hhead)
  by_cases hclosing : token.kind = .closeParen
  · cases inner with
    | zero => exact hrefused _ (.closeCall hclosing)
    | succ inner => exact hrefused _ (.unnest hclosing)
  · exact hrefused _ (.plain hbracket hhead hclosing)

/-- A link that holds complete segments awaits no segment. -/
theorem awaitsSegment_of_derives {inside : List Token} (h : Derives .segments inside.reverse) :
    awaitsSegment inside = false := by
  obtain ⟨_, last, hlast, htext⟩ := h.segments_ends
  rw [List.getLast?_reverse] at hlast
  cases inside with
  | nil => cases hlast
  | cons token inside =>
      obtain rfl : token = last := Option.some.inj hlast
      exact not_arrow_of_isLinkText htext

/-- Inside a link no link text is refused, and behind complete segments neither an arrow nor the closing
bracket. -/
theorem not_linkText_of_refused {opening : Token} {inside : List Token}
    (hnone : (Reader.mk hooks phrases (.linking opening inside)).step token = none) :
    token.kind.isLinkText = false ∧ (Derives .segments inside.reverse →
      token.kind ≠ .linkArrow ∧ token.kind ≠ .linkClose) := by
  have hrefused := not_steps_of_refused hnone
  refine ⟨?_, fun hinside => ⟨?_, ?_⟩⟩
  · rw [← Bool.not_eq_true]
    exact fun htext => hrefused _ (.linkText htext)
  · exact fun harrow => hrefused _ (.arrow (awaitsSegment_of_derives hinside) harrow)
  · exact fun hclose => hrefused _ (.closeLink (awaitsSegment_of_derives hinside) hclose)

end Refused

/-! ### The innermost level -/

section Stops

variable {source : String} {stuck : List Token}

/-- Phrases in front of a phrase that breaks off, which goes on with none of them. -/
theorem Breaks.phrasesStop {level : Level} {phrases : List Phrase} {tail : List Token}
    (h : Breaks source tail stuck) (hfits : FitsAll level phrases) (hapart : ApartAll phrases)
    (hhead : ∀ token ∈ tail.head?, token.kind ≠ .hookOpen) :
    PhrasesStop source level phrases tail stuck := by
  refine ⟨hfits, hapart, ?_, .breaks h⟩
  intro last _
  apply last.endsAt_of
  intro token hmem
  rcases h.opens token hmem with hkind | hkind | hkind
  · rw [hkind]
    exact ⟨rfl, nofun⟩
  · rw [hkind]
    exact ⟨rfl, nofun⟩
  · exact absurd hkind (hhead token hmem)

/-- Phrases in front of what closes nothing. -/
theorem phrasesStop_closes {level : Level} {phrases : List Phrase}
    (hfits : FitsAll level phrases) (hapart : ApartAll phrases)
    (h : ∀ token ∈ stuck.head?, token.kind = .linkClose ∨ token.kind = .hookClose ∧ level = .passage) :
    PhrasesStop source level phrases stuck stuck :=
  ⟨hfits, hapart, fun last _ => last.endsAt_closing fun token hmem => (h token hmem).imp_right And.left,
    .closes rfl h⟩

/-- Where the reader stops, the phrases of the innermost level are complete up to the phrase that is being
read, if one is. -/
theorem exists_phrasesStop_inner (source : String) {last : Reader} (hfits : last.Fits) (hapart : last.Apart)
    (hrefused : ∀ token ∈ stuck.head?, last.step token = none) :
    ∃ phrases tail, PhrasesStop source (levelOf last.hooks) phrases tail stuck ∧
      yieldAll phrases ++ tail = yieldAll last.phrases.reverse ++ (last.reading.yield ++ stuck) ∧
      (last.hooks = [] → last.finish = some phrases ∧ tail = stuck ∨
        last.finish = none ∧ stuck.length < tail.length) := by
  obtain ⟨hooks, phrases, reading⟩ := last
  obtain ⟨hhooks, hphrases, hreading⟩ := hfits
  cases reading with
  | prose run =>
      have hall := fitsAll_reverse.2 (fitsAll_endRun hreading hphrases)
      have hapartAll : ApartAll (endRun run phrases).reverse :=
        apartAll_endRun hapart.phrases (hapart.prose run rfl)
      refine ⟨(endRun run phrases).reverse, stuck, phrasesStop_closes hall hapartAll ?_, ?_, ?_⟩
      · exact fun token hmem => Between.prose.closing_of_refused (hrefused token hmem)
      · simp [yieldAll_endRun, Reading.yield]
      · rintro rfl
        exact .inl ⟨rfl, rfl⟩
  | called call =>
      have hall : FitsAll (levelOf hooks) (.call call :: phrases).reverse :=
        fitsAll_reverse.2 ⟨hreading, hphrases⟩
      have hapartAll : ApartAll (.call call :: phrases).reverse :=
        apartAll_reverse_cons hapart.phrases trivial fun _ _ => joins_eq_false rfl rfl
      refine ⟨(.call call :: phrases).reverse, stuck, phrasesStop_closes hall hapartAll ?_, ?_, ?_⟩
      · exact fun token hmem => Between.called.closing_of_refused (hrefused token hmem)
      · rw [yieldAll_reverse_cons, List.append_assoc]
        rfl
      · rintro rfl
        exact .inl ⟨rfl, rfl⟩
  | calling head inner body =>
      obtain ⟨hhead, hbody⟩ := hreading
      have hbreaks : Breaks source (head :: (body.reverse ++ stuck)) stuck :=
        breaks_call hhead hbody fun token hmem => isBracket_of_refused (hrefused token hmem)
      refine ⟨phrases.reverse, _, hbreaks.phrasesStop (fitsAll_reverse.2 hphrases) hapart.phrases ?_, rfl, ?_⟩
      · rintro token ⟨⟩
        simp [hhead]
      · rintro rfl
        exact .inr ⟨rfl, hbreaks.shorter⟩
  | linking opening inside =>
      obtain ⟨hopening, hinside⟩ := hreading
      have hbreaks : Breaks source (opening :: (inside.reverse ++ stuck)) stuck :=
        breaks_link hopening hinside (fun token hmem => (not_linkText_of_refused (hrefused token hmem)).1)
          fun hsegments token hmem => (not_linkText_of_refused (hrefused token hmem)).2 hsegments
      refine ⟨phrases.reverse, _, hbreaks.phrasesStop (fitsAll_reverse.2 hphrases) hapart.phrases ?_, rfl, ?_⟩
      · rintro token ⟨⟩
        simp [hopening]
      · rintro rfl
        exact .inr ⟨rfl, hbreaks.shorter⟩

/-! ### From level to level -/

/-- Where phrases in an open hook stop, so do the phrases in front of the hook: in front of the hook, or of
the call that it is attached to. -/
theorem PhrasesStop.outward {hook : OpenHook} {outer : List OpenHook} {phrases : List Phrase}
    {tail : List Token} (h : PhrasesStop source .hook phrases tail stuck) (hfits : HooksFit (hook :: outer))
    (hapart : hook.Apart) :
    ∃ later, PhrasesStop source (levelOf outer) hook.before.reverse later stuck ∧
      later = hook.callYield ++ hook.opening :: (yieldAll phrases ++ tail) ∧ stuck.length < later.length := by
  obtain ⟨call, opening, before⟩ := hook
  obtain ⟨⟨hopening, hbefore, hcall⟩, _⟩ := hfits
  have hopen : OpenHookAt source opening phrases tail stuck := ⟨h, hopening⟩
  have hbeforeFits := fitsAll_reverse.2 hbefore
  cases call with
  | none =>
      have hbreaks := breaks_hook hopen
      refine ⟨_, ⟨hbeforeFits, hapart.before, ?_, .breaks hbreaks⟩, rfl, hbreaks.shorter⟩
      intro last hmem
      rw [List.getLast?_reverse] at hmem
      have hbare := hapart.bare rfl last hmem
      cases last with
      | prose run =>
          rintro token ⟨⟩
          rw [hopening]
          cases levelOf outer <;> rfl
      | call text => cases hbare
      | _ => trivial
  | some text =>
      have hbreaks := breaks_hooked (hcall text rfl) hopen
      refine ⟨_, hbreaks.phrasesStop hbeforeFits hapart.before ?_, rfl, hbreaks.shorter⟩
      rintro token ⟨⟩
      simp [(hcall text rfl).1]

/-- Where phrases stop, so do those of the outermost level, in front of what is still open. -/
theorem PhrasesStop.outermost {hooks : List OpenHook} {phrases : List Phrase} {tail : List Token}
    (h : PhrasesStop source (levelOf hooks) phrases tail stuck) (hfits : HooksFit hooks)
    (hapart : ∀ hook ∈ hooks, hook.Apart) :
    ∃ front rest, PhrasesStop source .passage front rest stuck ∧
      yieldAll front ++ rest = hooksYield hooks ++ (yieldAll phrases ++ tail) ∧
      (hooks = [] ∧ front = phrases ∧ rest = tail ∨ hooks ≠ [] ∧ stuck.length < rest.length) := by
  induction hooks generalizing phrases tail with
  | nil => exact ⟨phrases, tail, h, rfl, .inl ⟨rfl, rfl, rfl⟩⟩
  | cons hook outer ih =>
      obtain ⟨later, hstop, hlater, hshorter⟩ := h.outward hfits (hapart hook List.mem_cons_self)
      obtain ⟨front, rest, hfront, hyield, hrest⟩ :=
        ih hstop hfits.2 fun other hmem => hapart other (List.mem_cons_of_mem _ hmem)
      refine ⟨front, rest, hfront, ?_, .inr ⟨List.cons_ne_nil _ _, ?_⟩⟩
      · simp [hyield, hlater, hooksYield]
      · rcases hrest with ⟨_, _, rfl⟩ | ⟨_, hlt⟩
        · exact hshorter
        · exact hlt

/-- Where the reader stops, the phrases of the passage are complete: up to the token that is refused, if
reading may end there, and otherwise up to a phrase that breaks off at that token. -/
theorem exists_phrasesStop (source : String) {tokens : List Token} {last : Reader}
    (hreads : Reads .start tokens last) (hrefused : ∀ token ∈ stuck.head?, last.step token = none) :
    ∃ front rest, tokens ++ stuck = yieldAll front ++ rest ∧ PhrasesStop source .passage front rest stuck ∧
      (last.finish = some front ∧ rest = stuck ∨ last.finish = none ∧ stuck.length < rest.length) := by
  have hfits := hreads.fits fits_start
  have hapart := hreads.apart apart_start.1 apart_start.2
  have hyield : last.yield = tokens := hreads.yield
  obtain ⟨phrases, tail, hinner, hsame, hend⟩ := exists_phrasesStop_inner source hfits hapart hrefused
  obtain ⟨front, rest, hfront, houter, hrest⟩ := hinner.outermost hfits.hooks hapart.hooks
  refine ⟨front, rest, ?_, hfront, ?_⟩
  · rw [houter, hsame, ← hyield]
    simp [Reader.yield]
  · rcases hrest with ⟨hhooks, rfl, rfl⟩ | ⟨hhooks, hlt⟩
    · exact hend hhooks
    · refine .inr ⟨?_, hlt⟩
      obtain ⟨hooks, before, reading⟩ := last
      cases hooks with
      | nil => exact absurd rfl hhooks
      | cons hook outer => cases reading <;> rfl

/-! ### The rules of a passage -/

/-- The rules take the phrases that are complete as items, and leave the rest. -/
theorem PhrasesStop.items {phrases : List Phrase} {rest : List Token}
    (h : PhrasesStop source .passage phrases rest stuck) :
    (Grammar.items source).run (yieldAll phrases ++ rest) = .ok (sketchAll source phrases, rest) := by
  have hloops := h.loops (standing_grammar source _) (Nat.le_refl _)
  have hmany : (Grammar.item source).many.Takes (yieldAll phrases ++ rest) _ rest := hloops.stalls_many.takes
  have hend : Rule.atEnd.Takes [] () [] := ⟨none, rfl⟩
  exact (((hmany.andThen (takes_any_many rest)).andThen hend).map Prod.fst).run

/-- The item behind the phrases that are complete fails where they stop. -/
theorem PhrasesStop.item {phrases : List Phrase} {rest : List Token}
    (h : PhrasesStop source .passage phrases rest stuck) :
    (Grammar.item source).run rest = .error [⟨rest.length - stuck.length, stuck.head?⟩] :=
  run_of_failed (h.stops.failed (standing_grammar source _) (Nat.le_refl _))

/-- A single failure is that of a token in the way, or of the first token. -/
theorem classify_one (source : String) (tokens : List Token) (place : Nat) (token : Token) :
    classify source tokens [⟨place, some token⟩] =
      if 0 < place then
        .noMatchingRule token.kind.name token.start (Text.fragmentAt source token.start)
      else trailingError source ((tokens.head?.map Token.start).getD source.utf8ByteSize) := rfl

/-- At the end nothing is refused. -/
theorem refused_nil (last : Reader) : ∀ token ∈ ([] : List Token).head?, last.step token = none := nofun

variable {tokens : List Token}

/-- The rules take the phrases of a passage that can be read. -/
theorem items_of_ok (source : String) {phrases : List Phrase} (h : readPhrases tokens = .ok phrases) :
    (Grammar.items source).run tokens = .ok (sketchAll source phrases, []) := by
  obtain ⟨last, hreads, hfinish⟩ := readFrom_eq_ok_iff.1 h
  obtain ⟨front, rest, htokens, hstop, hend⟩ := exists_phrasesStop source hreads (refused_nil last)
  rw [List.append_nil] at htokens
  rcases hend with ⟨hfront, rfl⟩ | ⟨hnone, _⟩
  · obtain rfl : phrases = front := Option.some.inj (hfinish.symm.trans hfront)
    rw [htokens]
    exact hstop.items
  · rw [hfinish] at hnone
    cases hnone

/-- Of a passage that cannot be read the rules take the phrases in front of an item that fails, and for its
failure the passage is refused with the error of the place where the reader stops. -/
theorem items_of_error (source : String) {stop : Stop} (h : readPhrases tokens = .error stop) :
    ∃ sketches rest failures, (Grammar.items source).run tokens = .ok (sketches, rest) ∧ rest ≠ [] ∧
      (Grammar.item source).run rest = .error failures ∧
      classify source rest failures = stop.toError source := by
  rcases reads_or_stops .start tokens with
    ⟨last, hlast⟩ | ⟨front, token, behind, last, rfl, hfront, hnone⟩
  · obtain ⟨phrases, rest, htokens, hstop, hend⟩ := exists_phrasesStop source hlast (refused_nil last)
    rw [List.append_nil] at htokens
    rw [readPhrases, readFrom_of_reads_all hlast] at h
    rcases hend with ⟨hfinish, _⟩ | ⟨hfinish, hlt⟩
    · rw [hfinish] at h
      cases h
    · rw [hfinish] at h
      cases h
      refine ⟨_, rest, _, htokens ▸ hstop.items, List.ne_nil_of_length_pos hlt, hstop.item, rfl⟩
  · have hrefused : ∀ other ∈ (token :: behind).head?, last.step other = none := by
      rintro other ⟨⟩
      exact hnone
    obtain ⟨phrases, rest, htokens, hstop, hend⟩ := exists_phrasesStop source hfront hrefused
    rw [readPhrases, readFrom_of_stopped hfront hnone] at h
    cases h
    rcases hend with ⟨hfinish, rfl⟩ | ⟨hfinish, hlt⟩
    · refine ⟨_, _, _, htokens ▸ hstop.items, List.cons_ne_nil _ _, hstop.item, ?_⟩
      rw [hfinish, List.head?_cons, classify_one, Nat.sub_self]
      rfl
    · refine ⟨_, rest, _, htokens ▸ hstop.items, List.ne_nil_of_length_pos (Nat.zero_lt_of_lt hlt),
        hstop.item, ?_⟩
      have hplace : 0 < rest.length - (token :: behind).length := Nat.sub_pos_of_lt hlt
      rw [hfinish, List.head?_cons, classify_one, if_pos hplace]
      rfl

end Stops

/-! ### Parsing -/

/-- The phrases of a passage are read from its resolved tokens. -/
theorem phrasesOf_eq (source : String) :
    phrasesOf source = (readPhrases (tokensOf source)).mapError (Stop.toError source) := by
  rw [phrasesOf, tokenize_eq]
  rfl

/-- A passage is parsed by way of its phrases: these are read, and then they become nodes. -/
theorem parse_eq (catalog : Catalog) (source : String) :
    parse catalog source = do
      let phrases ← phrasesOf source
      let nodes ← nodesOf source catalog phrases
      return ⟨nodes⟩ := by
  rw [parse, tokenize_eq, phrasesOf_eq]
  show (((Grammar.items source).run (tokensOf source)).mapError _ >>= _) = _
  cases hread : readPhrases (tokensOf source) with
  | ok phrases =>
      obtain ⟨hfits, hyield⟩ := readPhrases_fits hread
      have hnodes : sketchedNodes source catalog (sketchAll source phrases) = nodesOf source catalog phrases :=
        sketchedNodes_sketchAll hfits (hyield ▸ List.infix_refl _)
      rw [items_of_ok source hread]
      show (sketchedNodes source catalog (sketchAll source phrases) >>= _) = nodesOf source catalog phrases >>= _
      rw [hnodes]
  | error stop =>
      obtain ⟨sketches, rest, failures, hitems, hne, hitem, herror⟩ := items_of_error source hread
      have hleft : rest.isEmpty = false := by simpa using hne
      have hstop : stopError source rest = stop.toError source := by
        rw [stopError, hitem]
        exact herror
      rw [hitems]
      show (if rest.isEmpty = true then _ else _) = _
      rw [hleft, hstop]
      rfl

end PassageMarkup
