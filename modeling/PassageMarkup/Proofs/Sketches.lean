/-
Module: PassageMarkup.Proofs.Sketches
Layer: Proofs
Purpose: What becomes of a sketch and of the phrase that it is drawn from is the same. A sketch keeps spans
  where a phrase keeps tokens; the tokens of a passage follow each other, so the span of some in a row starts
  with the first and ends with the last of them, and its text is theirs. A link has its last segment for a
  target where the phrase is split at the last arrow, and the name of a call is what stands between the
  parenthesis and the colon of its head.
Imports: Proofs.CallSpelling, Proofs.PhraseRules, Proofs.Spans
Main exports: Tiles.bounds, extractText_bounds, bounds_segmentSpans, ofSegments_eq_ofTokens,
  CallText.nameOfHead_eq, nodes_sketch, sketchedNodes_sketchAll
-/
import PassageMarkup.Proofs.CallSpelling
import PassageMarkup.Proofs.PhraseRules
import PassageMarkup.Proofs.Spans

namespace PassageMarkup

open Text

/-! ### Bounds of spans -/

theorem bounds_singleton (span : Span) : Span.bounds [span] = span := rfl

theorem bounds_cons (span : Span) {spans : List Span} (hne : spans ≠ []) :
    Span.bounds (span :: spans) =
      ⟨min span.start (Span.bounds spans).start, max span.stop (Span.bounds spans).stop⟩ := by
  rcases List.exists_cons_of_ne_nil hne with ⟨other, rest, rfl⟩
  simp [Span.bounds, List.min?_cons, List.max?_cons]

/-- Tokens of a tiled text in a row tile a part of it. -/
theorem Tiles.part {offset : Nat} {cs : List Char} {tokens part : List Token} (h : Tiles offset cs tokens)
    (hpart : part <:+: tokens) : ∃ offset cs, Tiles offset cs part := by
  rcases hpart with ⟨before, behind, rfl⟩
  rw [List.append_assoc] at h
  rcases h.split with ⟨_, _, _, _, hrest⟩
  rcases hrest.split with ⟨inner, _, _, hinner, _⟩
  exact ⟨_, inner, hinner⟩

/-- The span of tokens in a row starts with the first and ends with the last of them. -/
theorem Tiles.bounds {offset : Nat} {cs : List Char} {tokens : List Token} (h : Tiles offset cs tokens) :
    ∀ {first last : Token}, tokens.head? = some first → tokens.getLast? = some last →
      Span.bounds (tokens.map Token.span) = ⟨first.start, last.stop⟩ := by
  induction h with
  | done =>
      intro first last hfirst
      cases hfirst
  | @token offset gap text rest token tokens _ hsolid _ _ hstart hstop hrest ih =>
      intro first last hfirst hlast
      obtain rfl : token = first := Option.some.inj hfirst
      cases tokens with
      | nil =>
          obtain rfl : token = last := Option.some.inj hlast
          rfl
      | cons next tokens =>
          rw [List.getLast?_cons_cons] at hlast
          have hnext := hrest.start_lt_stop next List.mem_cons_self
          have hend := hrest.start_lt_stop last (List.mem_of_getLast? hlast)
          have htoken : token.start ≤ token.stop := by omega
          rw [List.map_cons, bounds_cons _ (by simp), ih rfl hlast]
          simp only [Token.span, Span.mk.injEq]
          omega

section Source

variable {source : String} {part : List Token}

/-- The span of some tokens in a row is a part of the source. -/
theorem part_bounds (hpart : part <:+: tokensOf source) {first last : Token}
    (hfirst : part.head? = some first) (hlast : part.getLast? = some last) :
    Span.bounds (part.map Token.span) = ⟨first.start, last.stop⟩ ∧ first.start < last.stop ∧
      last.stop ≤ source.utf8ByteSize ∧
      part? source first.start last.stop = some (slice source first.start last.stop) := by
  have htiles := tiles_tokensOf source
  rcases htiles.part hpart with ⟨offset, cs, hpartTiles⟩
  rcases hpart with ⟨before, behind, htokens⟩
  rcases htiles.span before part behind first last (by rw [← htokens, List.append_assoc]) hfirst hlast with
    ⟨front, middle, back, hsource, hsolid, hstart, hstop⟩
  rw [Nat.zero_add] at hstart
  have hpos := byteLength_pos hsolid.ne_nil
  have hfirstAt : OnBoundary source first.start :=
    ⟨front, middle ++ back, by rw [hsource, List.append_assoc], hstart.symm⟩
  have hlastAt : OnBoundary source last.stop :=
    ⟨front ++ middle, back, hsource, by rw [byteLength_append, hstop, hstart]⟩
  exact ⟨hpartTiles.bounds hfirst hlast, by omega, hlastAt.le_size, part?_of_onBoundary hfirstAt hlastAt⟩

/-- The text of the span of some tokens in a row is the text that they span. -/
theorem extractText_bounds (hpart : part <:+: tokensOf source) (hne : part ≠ []) :
    extractText source (.bounds (part.map Token.span)) = spanText source part := by
  have hfirst := List.head?_eq_some_head hne
  have hlast := List.getLast?_eq_some_getLast hne
  rcases part_bounds hpart hfirst hlast with ⟨hbounds, hlt, hle, htext⟩
  rw [extractText, hbounds, if_pos ⟨hlt, hle⟩, htext, spanText, hfirst, hlast]

/-! ### Links -/

/-- The segments of a link reach from its first token to its last. -/
theorem bounds_segmentSpans (h : Derives .segments part) (hpart : part <:+: tokensOf source) :
    Span.bounds (segmentSpans part) = .bounds (part.map Token.span) := by
  generalize hsymbol : Symbol.segments = symbol at h
  induction h with
  | segmentsOne hsegment =>
      cases hsegment with
      | segment hne hrun => rw [segmentSpans_run hrun, bounds_singleton]
  | @segmentsCons run rest next hsegment hnext hrest _ ih =>
      cases hsegment with
      | segment hne hrun =>
          have hrestNe := hrest.segments_ne_nil
          have hrunPart : run <:+: tokensOf source := (List.prefix_append _ _).isInfix.trans hpart
          have hrestPart : rest <:+: tokensOf source :=
            List.IsInfix.trans ⟨run ++ [next], [], by simp⟩ hpart
          have hfirst := List.head?_eq_some_head hne
          have hlast := List.getLast?_eq_some_getLast hrestNe
          have hwholeFirst : (run ++ next :: rest).head? = some (run.head hne) := by
            rw [List.head?_append, hfirst, Option.some_or]
          have hwholeLast : (run ++ next :: rest).getLast? = some (rest.getLast hrestNe) := by
            rw [List.getLast?_append, List.getLast?_cons, hlast]
            rfl
          have hrunBounds := part_bounds hrunPart hfirst (List.getLast?_eq_some_getLast hne)
          have hrestBounds := part_bounds hrestPart (List.head?_eq_some_head hrestNe) hlast
          -- the last token of the run is in front of the first one behind the arrow
          have hapart := (tiles_tokensOf source).pairwise.sublist hpart.sublist
          have hnextTo := (List.pairwise_append.1 hapart).2.2 _ (List.getLast_mem hne) _
            (List.mem_cons_of_mem next (List.head_mem hrestNe))
          rw [segmentSpans_append hrun hnext, bounds_cons _ (by simp [segmentSpans]), ih hrestPart hsymbol,
            hrunBounds.1, hrestBounds.1, (part_bounds hpart hwholeFirst hwholeLast).1]
          simp only [Span.mk.injEq]
          omega
  | _ => cases hsymbol

theorem segmentSpans_ne_nil (inside : List Token) : segmentSpans inside ≠ [] := by
  simp [segmentSpans]

/-- A link drawn from its segments has the sides that are left and right of its last arrow. -/
theorem ofSegments_eq_ofTokens (h : Derives .segments part) (hpart : part <:+: tokensOf source) :
    Link.ofSegments source (segmentSpans part) = .ofTokens source part := by
  cases hsplit : splitAtLastArrow? part with
  | none =>
      have hsides := splitAtLastArrow?_eq_none_iff.1 hsplit
      have hone : segmentSpans part = [.bounds (part.map Token.span)] := by
        rw [segmentSpans, List.splitOnP_eq_singleton]
        · rfl
        · exact fun token hmem => beq_eq_false_iff_ne.2 (hsides token hmem)
      rw [Link.ofTokens, hsplit, hone]
      show Link.toSelf (extractText source (.bounds (part.map Token.span))) = _
      rw [extractText_bounds hpart h.segments_ne_nil]
  | some sides =>
      rcases sides with ⟨text, target⟩
      rcases splitAtLastArrow?_eq_some hsplit with ⟨arrow, harrow, rfl⟩
      rcases parts_of_splitAtLastArrow? hsplit with ⟨htextPart, htargetPart⟩
      rcases h.segments_split harrow with ⟨htext, htarget⟩
      have hparted : segmentSpans (text ++ arrow :: target) =
          segmentSpans text ++ [.bounds (target.map Token.span)] := by
        have hlast := not_arrow_of_splitAtLastArrow? hsplit
        rw [segmentSpans, List.splitOnP_append_cons _ _ (by simp [harrow]),
          List.splitOnP_eq_singleton fun token hmem => beq_eq_false_iff_ne.2 (hlast token hmem)]
        exact List.map_append
      rcases List.exists_cons_of_ne_nil (segmentSpans_ne_nil text) with ⟨first, others, hspans⟩
      have hleft : extractText source (.bounds (first :: others)) = spanText source text := by
        rw [← hspans, bounds_segmentSpans htext (htextPart.trans hpart),
          extractText_bounds (htextPart.trans hpart) htext.segments_ne_nil]
      have hright := extractText_bounds (htargetPart.trans hpart) htarget.segments_ne_nil
      rw [Link.ofTokens, hsplit, Link.ofSegments, hparted, List.getLast?_concat, List.dropLast_concat, hspans]
      exact congrArg₂ Link.ofSides hleft hright

/-! ### Calls -/

/-- The name in the head of a call is that of the call. -/
theorem CallText.nameOfHead_eq {call : CallText} (hmem : call.head ∈ tokensOf source)
    (hkind : call.head.kind = .callHead) : nameOfHead call.head.text = call.name := by
  rcases head_name hmem hkind with ⟨htext, hname⟩
  have hopening : (call.name.toList ++ [':']).dropWhile (· == '(') = call.name.toList ++ [':'] := by
    cases hchars : call.name.toList with
    | nil => rfl
    | cons c chars =>
        have hc := (hname c (by simp [hchars])).1
        simp [hc]
  have hcolon : call.name.toList.reverse.dropWhile (· == ':') = call.name.toList.reverse := by
    cases hchars : call.name.toList.reverse with
    | nil => rfl
    | cons c chars =>
        have hc := (hname c (List.mem_reverse.1 (by simp [hchars]))).2
        simp [hc]
  have hstart : call.head.text.toList.dropWhile (· == '(') = call.name.toList ++ [':'] := by
    rw [htext]
    simpa using hopening
  rw [nameOfHead, hstart, List.reverse_append]
  simp [hcolon]

variable {catalog : Catalog} {call : CallText}

/-- A call is drawn with the text that it has in the source. -/
theorem CallText.callNode_eq (hpart : call.yield <:+: tokensOf source) (pattern : Option Pattern)
    (hook : Option (List Node)) :
    callNode source call.name ⟨call.head.start, call.closing.stop⟩ (Arguments.ofTokens call.body) pattern hook =
      call.node source pattern hook := by
  cases pattern with
  | some pattern => rfl
  | none =>
      have hlast : call.yield.getLast? = some call.closing := List.getLast?_concat
      rw [callNode, (part_bounds hpart rfl hlast).2.2.2]
      rfl

/-! ### Phrases -/

/-- A call has the nodes of its sketch, if its hook has. -/
theorem CallText.nodes_sketch (hfits : call.Fits) (hpart : call.yield <:+: tokensOf source)
    {hook : Option (List Sketch)} :
    (call.sketch hook).nodes source catalog = do
      let pattern ← call.check source catalog
      let nodes ← sketchedHook source catalog hook
      return [call.node source pattern nodes] := by
  have hname := call.nameOfHead_eq (hpart.subset (by simp [CallText.yield])) hfits.1
  rw [CallText.sketch, Sketch.nodes, hname]
  simp only [call.callNode_eq hpart]
  rfl

mutual

/-- The nodes of a phrase are those of its sketch. -/
theorem nodes_sketch {level : Level} : ∀ {phrase : Phrase}, phrase.Fits level →
    phrase.yield <:+: tokensOf source →
      (phrase.sketch source).nodes source catalog = phrase.nodes source catalog
  | .prose run, ⟨hne, _⟩, hpart => by
      have hpart : run <:+: tokensOf source := hpart
      rw [Phrase.sketch, Sketch.nodes, extractText_bounds hpart hne]
      rfl
  | .value token, ⟨_, hkind⟩, _ => by
      rcases exists_literal hkind with ⟨value, hvalue⟩
      rw [Phrase.sketch, hookLiteral?_eq hkind, Phrase.nodes, hvalue]
      rfl
  | .link opening inside closing, ⟨_, hinside, _⟩, hpart => by
      rw [Phrase.sketch, Sketch.nodes, ofSegments_eq_ofTokens hinside (inside_part_link.trans hpart)]
      rfl
  | .hook opening children closing, ⟨_, hchildren, _⟩, hpart => by
      rw [Phrase.sketch, Sketch.nodes, sketchedNodes_sketchAll hchildren (inside_part_hook.trans hpart)]
      rfl
  | .call text, hfits, hpart => text.nodes_sketch hfits hpart
  | .hooked text opening children closing, ⟨hfits, _, hchildren, _⟩, hpart => by
      have hinside := sketchedNodes_sketchAll hchildren (inside_part_hooked.trans hpart)
      rw [Phrase.sketch, text.nodes_sketch hfits (call_part_hooked.trans hpart), sketchedHook, hinside,
        Phrase.nodes]
      simp only [bind_assoc, pure_bind]

/-- The nodes of phrases are those of their sketches, in order. -/
theorem sketchedNodes_sketchAll {level : Level} : ∀ {phrases : List Phrase}, FitsAll level phrases →
    yieldAll phrases <:+: tokensOf source →
      sketchedNodes source catalog (sketchAll source phrases) = nodesOf source catalog phrases
  | [], _, _ => rfl
  | phrase :: rest, ⟨hphrase, hrest⟩, hpart => by
      rw [sketchAll, sketchedNodes, nodesOf, nodes_sketch hphrase (first_part_yieldAll.trans hpart),
        sketchedNodes_sketchAll hrest (rest_part_yieldAll.trans hpart)]

end

end Source

end PassageMarkup
