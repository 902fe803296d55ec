/-
Module: PassageMarkup.Proofs.CallAlone
Layer: Proofs
Purpose: A call that stands alone. A passage whose tokens are a head, elements and a closing parenthesis is
  read as just that call, however its elements nest. The text of a call that is cut out of its passage is
  such a passage: there is no bracket in a call, so its tokens stood in a row when they were scanned, and
  a cut from one token to a later one scans into the tokens between them. Hence a call that the catalog
  does not know is kept without loss: its text is a passage with the call as its tree.
Imports: Proofs.BracketRuns, Proofs.Levels, Proofs.ReaderComplete, Proofs.Relocation, Proofs.Slices
Main exports: readPhrases_call, nodesOf_call, parse_call, Becomes.exists_call, CallText.scan_raw,
  CallText.raw_alone, parse_raw_unknownCall
-/
import PassageMarkup.Proofs.BracketRuns
import PassageMarkup.Proofs.Levels
import PassageMarkup.Proofs.ReaderComplete
import PassageMarkup.Proofs.Relocation
import PassageMarkup.Proofs.Slices

namespace PassageMarkup

open Text

/-! ### A passage that is one call -/

/-- Elements go into the body of a call as they come. -/
theorem Derives.reads_elements {body : List Token} (h : Derives .elements body) (head : Token) :
    Reads ⟨[], [], .calling head 0 []⟩ body ⟨[], [], .calling head 0 body.reverse⟩ := by
  rcases accepts_of_derives h [] [] head 0 [] with ⟨last, hreads⟩
  -- the state holds the tokens that it has read, so it holds the body
  have hyield : last.reverse = body := by
    simpa [Reader.yield, hooksYield, yieldAll, Reading.yield] using hreads.yield
  have hlast : last = body.reverse := by rw [← hyield, List.reverse_reverse]
  exact hlast ▸ hreads

/-- The tokens of a call are read as the call. -/
theorem readPhrases_call {call : CallText} (h : call.Fits) : readPhrases call.yield = .ok [.call call] := by
  rcases call with ⟨head, body, closing⟩
  rcases h with ⟨hhead, hbody, hclosing⟩
  have hreads : Reads .start (head :: (body ++ [closing]))
      ⟨[], [], .called ⟨head, body.reverse.reverse, closing⟩⟩ :=
    .cons (.openCall hhead) ((hbody.reads_elements head).append (Steps.closeCall hclosing).reads)
  apply readFrom_eq_ok_iff.2
  refine ⟨_, hreads, ?_⟩
  simp [Reader.finish]

/-- The node of a call that is the only phrase, if the catalog does not refuse it. -/
theorem nodesOf_call {catalog : Catalog} {source : String} {call : CallText} {pattern : Option Pattern}
    (h : catalog.check call.name (Arguments.ofTokens call.body) = .ok pattern) :
    nodesOf source catalog [.call call] = .ok [call.node source pattern none] := by
  have hcheck : call.check source catalog = .ok pattern := except_mapError_eq_ok.2 h
  refine except_bind_eq_ok.2 ⟨[call.node source pattern none], ?_, rfl⟩
  exact except_bind_eq_ok.2 ⟨_, hcheck, rfl⟩

/-- A passage that scans into the tokens of a call has the call as its tree. -/
theorem parse_call {catalog : Catalog} {source : String} {call : CallText} {pattern : Option Pattern}
    (hscan : scan source = call.yield) (hfits : call.Fits)
    (hcheck : catalog.check call.name (Arguments.ofTokens call.body) = .ok pattern) :
    parse catalog source = .ok ⟨[call.node source pattern none]⟩ := by
  apply parse_eq_ok_iff.2
  refine ⟨[.call call], ?_, nodesOf_call hcheck⟩
  rw [tokensOf, resolveBrackets, hscan, resolveFrom_of_plain [] hfits.not_isBracket]
  exact readPhrases_call hfits

/-! ### Calls of a passage -/

/-- Whether a node is a call, known or not. -/
def Node.isCall : Node → Bool
  | .call _ _ | .unknownCall _ _ _ => true
  | _ => false

section Passage

variable {source : String} {catalog : Catalog} {call : CallText}

/-- A call of a tree stands for a call of the passage that the catalog has not refused. -/
theorem Becomes.exists_call {level : Level} {phrase : Phrase} {node : Node}
    (h : Becomes source catalog phrase node) (hcall : node.isCall = true) (hfits : phrase.Fits level)
    (hpart : phrase.yield <:+: tokensOf source) :
    ∃ (call : CallText) (pattern : Option Pattern) (hook : Option (List Node)),
      call.Fits ∧ call.yield <:+: tokensOf source ∧
        catalog.check call.name (Arguments.ofTokens call.body) = .ok pattern ∧
        node = call.node source pattern hook := by
  cases h with
  | prose | value | link | hook => cases hcall
  | @call text pattern hcheck => exact ⟨text, pattern, none, hfits, hpart, hcheck, rfl⟩
  | @hooked text pattern _ _ _ nodes hcheck =>
      exact ⟨text, pattern, some nodes, hfits.1, call_part_hooked.trans hpart, hcheck, rfl⟩

/-- The same, at whatever depth of an accepted passage the call is. -/
theorem Siblings.exists_call {program : Program} (hparse : parse catalog source = .ok program)
    {level : Level} {nodes : List Node} (h : Siblings program level nodes) {node : Node}
    (hmem : node ∈ nodes) (hcall : node.isCall = true) :
    ∃ (call : CallText) (pattern : Option Pattern) (hook : Option (List Node)),
      call.Fits ∧ call.yield <:+: tokensOf source ∧
        catalog.check call.name (Arguments.ofTokens call.body) = .ok pattern ∧
        node = call.node source pattern hook := by
  rcases h.origin hparse with ⟨phrases, hlevel, hnodes⟩
  rcases exists_becomes_of_mem (hlevel.becomes hnodes) hmem with ⟨phrase, hphrase, hbecomes⟩
  exact hbecomes.exists_call hcall (hlevel.fits_of_mem hphrase) (hlevel.part_of_mem hphrase)

theorem moves_shiftLeft (offset : Nat) : Moves (Token.shiftLeft offset) :=
  ⟨fun _ => rfl, fun _ => rfl⟩

/-- A call that is moved fits the grammar, since it is read as it was. -/
theorem CallText.Fits.map {f : Token → Token} (hf : Moves f) (h : call.Fits) : (call.map f).Fits := by
  have hread := readPhrases_map hf call.yield
  rw [readPhrases_call h] at hread
  exact (readPhrases_fits hread).1.1

/-- The text of a call has the tokens of the call, moved to its start. -/
theorem CallText.scan_raw (hfits : call.Fits) (hpart : call.yield <:+: tokensOf source) :
    scan (call.raw source) = (call.map (Token.shiftLeft call.head.start)).yield := by
  have hscanned : call.yield <:+: scan source :=
    (resolved_resolveFrom [] (scan source)).infix_of_plain hfits.not_isBracket hpart
  rcases hscanned with ⟨before, behind, htokens⟩
  have hlast : call.yield.getLast? = some call.closing := List.getLast?_concat
  have hscan := scan_slice_chosen htokens.symm rfl hlast
  rw [CallText.raw, hscan]
  simp [CallText.yield, CallText.map]

/-- The text of a call that stands alone is the whole passage. -/
theorem CallText.raw_alone (hpart : call.yield <:+: tokensOf source) :
    (call.map (Token.shiftLeft call.head.start)).raw (call.raw source) = call.raw source := by
  rcases hpart with ⟨before, behind, htokens⟩
  have hlast : call.yield.getLast? = some call.closing := List.getLast?_concat
  rcases (tiles_tokensOf source).span before call.yield behind call.head call.closing
    (by rw [← htokens, List.append_assoc]) rfl hlast with ⟨front, middle, back, hsource, _, hstart, hstop⟩
  rw [Nat.zero_add] at hstart
  have hraw : call.raw source = String.ofList middle := by
    rw [CallText.raw, hstop, hstart]
    exact slice_eq hsource
  have hwhole : (String.ofList middle).toList = [] ++ middle ++ [] := by simp
  have hslice := slice_eq hwhole
  rw [hraw]
  show slice (String.ofList middle) (call.head.start - call.head.start)
    (call.closing.stop - call.head.start) = String.ofList middle
  rw [hstop, Nat.sub_self, Nat.add_sub_cancel_left]
  simpa [byteLength] using hslice

end Passage

/-- A call that the catalog does not know, at whatever depth of an accepted passage, is kept without loss:
its text is accepted with the same catalog, and its tree is the call with the same name, the same text and
no hook. -/
theorem parse_raw_unknownCall {catalog : Catalog} {source : String} {program : Program}
    (hparse : parse catalog source = .ok program) {level : Level} {nodes : List Node}
    (hsiblings : Siblings program level nodes) {name raw : String} {hook : Option (List Node)}
    (hmem : .unknownCall name raw hook ∈ nodes) :
    parse catalog raw = .ok ⟨[.unknownCall name raw none]⟩ := by
  rcases hsiblings.exists_call hparse hmem rfl with ⟨call, pattern, attached, hfits, hpart, hcheck, hnode⟩
  cases pattern with
  | some pattern => cases hnode
  | none =>
      cases hnode
      have hmoves := moves_shiftLeft call.head.start
      have hchecked : catalog.check (call.map (Token.shiftLeft call.head.start)).name
          (Arguments.ofTokens (call.map (Token.shiftLeft call.head.start)).body) = .ok none := by
        rw [name_map hmoves, CallText.map, Arguments.ofTokens_map hmoves, hcheck]
      have halone := parse_call (call.scan_raw hfits hpart) (hfits.map hmoves) hchecked
      simpa only [CallText.node, name_map hmoves, call.raw_alone hpart] using halone

/-- Whether a node is a call that the catalog does not know, with a given name and text and with a hook. -/
def Node.isHookedUnknown (name raw : String) : Node → Bool
  | .unknownCall other spelling (some _) => other == name && spelling == raw
  | _ => false

/-- A call with an inner call and an unterminated quote among its arguments, inside a hook and with a hook of
its own. -/
theorem parse_raw_unknownCall_inside :
    ∃ program children hook,
      parse .builtin "(box:)[(odd: 1 2  (x: a \"b) , $ )[z]]" = .ok program ∧
        Siblings program .hook children ∧
        .unknownCall "odd" "(odd: 1 2  (x: a \"b) , $ )" (some hook) ∈ children ∧
        parse .builtin "(odd: 1 2  (x: a \"b) , $ )" =
          .ok ⟨[.unknownCall "odd" "(odd: 1 2  (x: a \"b) , $ )" none]⟩ := by
  have hany : (parse .builtin "(box:)[(odd: 1 2  (x: a \"b) , $ )[z]]").toOption.any
      (fun program => program.nodes.any fun outer => outer.hook?.any fun children =>
        children.any (Node.isHookedUnknown "odd" "(odd: 1 2  (x: a \"b) , $ )")) = true := by
    decide +kernel
  cases hparse : parse .builtin "(box:)[(odd: 1 2  (x: a \"b) , $ )[z]]" with
  | error e =>
      rw [hparse] at hany
      cases hany
  | ok program =>
      rw [hparse] at hany
      rcases List.any_eq_true.1 hany with ⟨outer, houter, hhook⟩
      rcases (Option.any_eq_true_iff_get _ _).1 hhook with ⟨hsome, hinner⟩
      rcases List.any_eq_true.1 hinner with ⟨node, hmem, hnode⟩
      have hsiblings : Siblings program .hook (outer.hook?.get hsome) :=
        .inside .top houter (Option.some_get hsome).symm
      unfold Node.isHookedUnknown at hnode
      split at hnode
      · rcases Bool.and_eq_true_iff.1 hnode with ⟨hname, hraw⟩
        obtain rfl := eq_of_beq hname
        obtain rfl := eq_of_beq hraw
        exact ⟨program, _, _, rfl, hsiblings, hmem, parse_raw_unknownCall hparse hsiblings hmem⟩
      · cases hnode

end PassageMarkup
