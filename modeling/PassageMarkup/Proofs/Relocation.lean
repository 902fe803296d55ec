/-
Module: PassageMarkup.Proofs.Relocation
Layer: Proofs
Purpose: Moving tokens. Reading phrases asks tokens for their kinds only, and reading arguments for their
  kinds and texts; byte ranges serve to quote the passage and for nothing else. So tokens that are moved
  are read as before, with the moved tokens in the phrases, and the tree stays the same if runs, links and
  calls still quote the same text.
  The same holds up to a key of the texts, and for passages that are refused: the cause is the same, at the
  moved place.
Imports: Proofs.Coverage
Main exports: Moves, Phrase.map, mapAll, Reader.map, step_map, readPhrases_map, Arguments.ofTokens_map,
  ParseError.withoutPlace, SameOutcome, Program.reword, Requotes, nodesOf_map, parse_of_requotes, Relocates,
  parse_of_relocates
-/
import PassageMarkup.Proofs.Coverage

namespace PassageMarkup

open Text

/-- A change of tokens that moves them and does nothing else. -/
structure Moves (f : Token → Token) : Prop where
  kind : ∀ token, (f token).kind = token.kind
  text : ∀ token, (f token).text = token.text

/-! ### Moved phrases -/

/-- A call with its tokens moved. -/
def CallText.map (f : Token → Token) (call : CallText) : CallText :=
  ⟨f call.head, call.body.map f, f call.closing⟩

mutual

/-- A phrase with its tokens moved. -/
def Phrase.map (f : Token → Token) : Phrase → Phrase
  | .prose run => .prose (run.map f)
  | .value token => .value (f token)
  | .link opening inside closing => .link (f opening) (inside.map f) (f closing)
  | .hook opening children closing => .hook (f opening) (mapAll f children) (f closing)
  | .call text => .call (text.map f)
  | .hooked text opening children closing =>
      .hooked (text.map f) (f opening) (mapAll f children) (f closing)

/-- Phrases with their tokens moved. -/
def mapAll (f : Token → Token) : List Phrase → List Phrase
  | [] => []
  | phrase :: rest => phrase.map f :: mapAll f rest

end

theorem mapAll_eq_map (f : Token → Token) (phrases : List Phrase) :
    mapAll f phrases = phrases.map (Phrase.map f) := by
  induction phrases with
  | nil => rfl
  | cons phrase rest ih => rw [mapAll, ih, List.map_cons]

theorem mapAll_reverse (f : Token → Token) (phrases : List Phrase) :
    mapAll f phrases.reverse = (mapAll f phrases).reverse := by
  rw [mapAll_eq_map, mapAll_eq_map, List.map_reverse]

/-- An open hook with its tokens moved. -/
def OpenHook.map (f : Token → Token) (hook : OpenHook) : OpenHook :=
  ⟨hook.call.map (CallText.map f), f hook.opening, mapAll f hook.before⟩

/-- The phrase being read, with its tokens moved. -/
def Reading.map (f : Token → Token) : Reading → Reading
  | .prose run => .prose (run.map f)
  | .calling head inner body => .calling (f head) inner (body.map f)
  | .called call => .called (call.map f)
  | .linking opening inside => .linking (f opening) (inside.map f)

/-- A state of reading with its tokens moved. -/
def Reader.map (f : Token → Token) (reader : Reader) : Reader :=
  ⟨reader.hooks.map (OpenHook.map f), mapAll f reader.phrases, reader.reading.map f⟩

/-! ### Reading moved tokens -/

section Reading

variable {f : Token → Token}

theorem endRun_map (run : List Token) (phrases : List Phrase) :
    endRun (run.map f) (mapAll f phrases) = mapAll f (endRun run phrases) := by
  cases run with
  | nil => rfl
  | cons token run =>
      show Phrase.prose ((token :: run).map f).reverse :: _ = _
      rw [← List.map_reverse]
      rfl

theorem close_map (hook : OpenHook) (children : List Phrase) (closing : Token) :
    (hook.map f).close (mapAll f children) (f closing) = (hook.close children closing).map f := by
  rcases hook with ⟨call, opening, before⟩
  cases call <;> rfl

theorem awaitsSegment_map (hf : Moves f) (inside : List Token) :
    awaitsSegment (inside.map f) = awaitsSegment inside := by
  cases inside with
  | nil => rfl
  | cons last inside =>
      show ((f last).kind == .linkArrow) = (last.kind == .linkArrow)
      rw [hf.kind]

theorem stepBetween_map (hf : Moves f) (hooks : List OpenHook) (phrases : List Phrase)
    (run : List Token) (token : Token) :
    stepBetween (hooks.map (OpenHook.map f)) (mapAll f phrases) (run.map f) (f token) =
      (stepBetween hooks phrases run token).map (Reader.map f) := by
  unfold stepBetween
  rw [hf.kind]
  cases token.kind with
  | hookOpen | linkOpen | callHead => simp only [endRun_map, Option.map_some]; rfl
  | linkClose => rfl
  | hookClose =>
      cases hooks with
      | nil => rfl
      | cons hook outer =>
          simp only [List.map_cons, endRun_map, ← mapAll_reverse, close_map, Option.map_some]
          rfl
  | «variable» | string =>
      cases hooks with
      | nil => rfl
      | cons hook outer =>
          simp only [List.map_cons, endRun_map, Option.map_some]
          rfl
  | _ => rfl

theorem stepCall_map (hf : Moves f) (head : Token) (inner : Nat) (body : List Token) (token : Token) :
    stepCall (f head) inner (body.map f) (f token) =
      (stepCall head inner body token).map (Reading.map f) := by
  unfold stepCall
  rw [hf.kind]
  cases token.kind with
  | closeParen =>
      cases inner with
      | zero => simp only [← List.map_reverse, Option.map_some]; rfl
      | succ outer => rfl
  | _ => rfl

/-- A token does to a moved state, when it is moved itself, what it does to the state. -/
theorem step_map (hf : Moves f) (reader : Reader) (token : Token) :
    (reader.map f).step (f token) = (reader.step token).map (Reader.map f) := by
  rcases reader with ⟨hooks, phrases, reading⟩
  cases reading with
  | prose run => exact stepBetween_map hf hooks phrases run token
  | called call =>
      show (if (f token).kind = .hookOpen then _ else _) = _
      rw [Reader.step, hf.kind]
      simp only
      split
      · rfl
      · exact stepBetween_map hf hooks (.call call :: phrases) [] token
  | calling head inner body =>
      show (stepCall (f head) inner (body.map f) (f token)).map _ = _
      rw [stepCall_map hf, Reader.step, Option.map_map, Option.map_map]
      rfl
  | linking opening inside =>
      show (if (f token).kind.isLinkText then _ else _) = _
      rw [Reader.step, hf.kind, awaitsSegment_map hf]
      simp only
      split
      · rfl
      split
      · rfl
      cases token.kind with
      | linkClose => simp only [← List.map_reverse, Option.map_some]; rfl
      | _ => rfl

theorem finish_map (reader : Reader) : (reader.map f).finish = reader.finish.map (mapAll f) := by
  rcases reader with ⟨hooks, phrases, reading⟩
  cases hooks with
  | cons hook outer => rfl
  | nil =>
      cases reading with
      | prose run =>
          show some (endRun (run.map f) (mapAll f phrases)).reverse = _
          rw [endRun_map, ← mapAll_reverse]
          rfl
      | called call =>
          show some (mapAll f (.call call :: phrases)).reverse = _
          rw [← mapAll_reverse]
          rfl
      | calling | linking => rfl

/-- A stop with its token moved. -/
def Stop.map (f : Token → Token) : Stop → Stop
  | .trailing token => .trailing (f token)
  | .unexpected token => .unexpected (f token)
  | .atEnd => .atEnd

/-- Moved tokens are read as the moved phrases, or reading stops at the moved token. -/
theorem readFrom_map (hf : Moves f) (reader : Reader) (tokens : List Token) :
    readFrom (reader.map f) (tokens.map f) =
      ((readFrom reader tokens).map (mapAll f)).mapError (Stop.map f) := by
  induction tokens generalizing reader with
  | nil =>
      rw [List.map_nil, readFrom, readFrom, finish_map]
      cases reader.finish <;> rfl
  | cons token rest ih =>
      rw [List.map_cons, readFrom, readFrom, step_map hf, finish_map, Option.isSome_map]
      cases reader.step token with
      | some next => exact ih next
      | none => cases reader.finish.isSome <;> rfl

theorem readPhrases_map (hf : Moves f) (tokens : List Token) :
    readPhrases (tokens.map f) = ((readPhrases tokens).map (mapAll f)).mapError (Stop.map f) :=
  readFrom_map hf .start tokens

end Reading

/-! ### Arguments of moved tokens -/

section Arguments

variable {f : Token → Token} (hf : Moves f)

include hf

theorem literal?_map (token : Token) : (f token).literal? = token.literal? := by
  simp only [Token.literal?, hf.kind, hf.text]

theorem number?_map (token : Token) : (f token).number? = token.number? := by
  simp only [Token.number?, hf.kind, hf.text]

theorem isMinus_map (token : Token) : (f token).isMinus = token.isMinus := by
  simp only [Token.isMinus, hf.kind, hf.text]

theorem arithmetic?_map (token : Token) : (f token).arithmetic? = token.arithmetic? := by
  simp only [Token.arithmetic?, hf.kind, hf.text]

theorem comparison?_map (token : Token) : (f token).comparison? = token.comparison? := by
  simp only [Token.comparison?, hf.kind, hf.text]

theorem keyword?_map (token : Token) : (f token).keyword? = token.keyword? := by
  simp only [Token.keyword?, hf.kind]

theorem readValue?_map (tokens : List Token) :
    readValue? (tokens.map f) = (readValue? tokens).map (Prod.map id (List.map f)) := by
  cases tokens with
  | nil => rfl
  | cons token rest =>
      simp only [List.map_cons, readValue?, isMinus_map hf, literal?_map hf]
      split
      · cases rest with
        | nil => rfl
        | cons digits later =>
            simp only [List.map_cons, number?_map hf]
            cases digits.number? <;> rfl
      · cases token.literal? <;> rfl

theorem readArithmetic?_map (tokens : List Token) :
    readArithmetic? (tokens.map f) = (readArithmetic? tokens).map (Prod.map id (List.map f)) := by
  unfold readArithmetic?
  rw [readValue?_map hf]
  cases readValue? tokens with
  | none => rfl
  | some pair =>
      rcases pair with ⟨left, rest⟩
      cases rest with
      | nil => rfl
      | cons token later =>
          simp only [Option.map_some, Prod.map, List.map_cons, Option.bind_eq_bind,
            Option.bind_some, arithmetic?_map hf]
          cases token.arithmetic? with
          | none => rfl
          | some operator =>
              simp only [readValue?_map hf]
              cases readValue? later <;> rfl

theorem readExpression?_map (tokens : List Token) :
    readExpression? (tokens.map f) = (readExpression? tokens).map (Prod.map id (List.map f)) := by
  unfold readExpression?
  rw [readArithmetic?_map hf]
  cases readArithmetic? tokens with
  | none => rfl
  | some pair =>
      rcases pair with ⟨left, rest⟩
      cases rest with
      | nil => rfl
      | cons token later =>
          simp only [Option.map_some, Prod.map, List.map_cons, Option.bind_eq_bind,
            Option.bind_some, comparison?_map hf]
          cases token.comparison? with
          | none => rfl
          | some operator =>
              simp only [readArithmetic?_map hf]
              cases readArithmetic? later <;> rfl

theorem Expression.ofTokens?_map (tokens : List Token) :
    Expression.ofTokens? (tokens.map f) = Expression.ofTokens? tokens := by
  unfold Expression.ofTokens?
  rw [readExpression?_map hf]
  cases readExpression? tokens with
  | none => rfl
  | some pair =>
      rcases pair with ⟨expression, rest⟩
      cases rest <;> rfl

theorem splitAtCommas_map (tokens : List Token) :
    splitAtCommas (tokens.map f) = (splitAtCommas tokens).map (List.map f) := by
  induction tokens with
  | nil => rfl
  | cons token rest ih =>
      simp only [List.map_cons, splitAtCommas, hf.kind, ih]
      split
      · rfl
      · cases splitAtCommas rest <;> rfl

theorem readKeywordArgument?_map (body : List Token) :
    readKeywordArgument? (body.map f) = readKeywordArgument? body := by
  unfold readKeywordArgument?
  rw [readValue?_map hf]
  cases readValue? body with
  | none => rfl
  | some pair =>
      rcases pair with ⟨left, rest⟩
      cases rest with
      | nil => rfl
      | cons token later =>
          simp only [Option.map_some, Prod.map, List.map_cons, Option.bind_eq_bind,
            Option.bind_some, keyword?_map hf, Expression.ofTokens?_map hf]
          rfl

theorem readArgumentList?_map (body : List Token) :
    readArgumentList? (body.map f) = readArgumentList? body := by
  cases body with
  | nil => rfl
  | cons token rest =>
      have hparts : ((splitAtCommas (token :: rest)).map (List.map f)).mapM Expression.ofTokens? =
          (splitAtCommas (token :: rest)).mapM Expression.ofTokens? := by
        rw [List.mapM_map]
        congr 1
        funext part
        exact Expression.ofTokens?_map hf part
      rw [← splitAtCommas_map hf] at hparts
      exact congrArg (Option.map Arguments.list) hparts

/-- Arguments do not depend on where the tokens of the body are. -/
theorem Arguments.ofTokens_map (body : List Token) :
    Arguments.ofTokens (body.map f) = Arguments.ofTokens body := by
  unfold Arguments.ofTokens
  rw [readKeywordArgument?_map hf, readArgumentList?_map hf]

theorem name_map (call : CallText) : (call.map f).name = call.name := by
  unfold CallText.name CallText.map
  rw [hf.text]

end Arguments

/-! ### Outcomes of two passages -/

/-- An error without the place that it names and the text there. -/
def ParseError.withoutPlace : ParseError → ParseError
  | .tokenization _ _ => .tokenization 0 ""
  | .noMatchingRule found _ _ => .noMatchingRule found 0 ""
  | .callShape name mismatch _ _ => .callShape name mismatch 0 ""
  | .trailingInput _ _ => .trailingInput 0 ""

/-- Two passages are both accepted, with related answers, or both refused for the same cause. -/
inductive SameOutcome {α β : Type} (related : α → β → Prop) :
    Except ParseError α → Except ParseError β → Prop where
  | ok {a : α} {b : β} (hrelated : related a b) : SameOutcome related (.ok a) (.ok b)
  | error {e e' : ParseError} (hcause : e.withoutPlace = e'.withoutPlace) :
      SameOutcome related (.error e) (.error e')

/-- What is done with related answers, with the same outcome, has the same outcome. -/
theorem SameOutcome.bind {α β γ δ : Type} {related : α → β → Prop} {further : γ → δ → Prop}
    {first : Except ParseError α} {second : Except ParseError β} {f : α → Except ParseError γ}
    {g : β → Except ParseError δ} (h : SameOutcome related first second)
    (hfurther : ∀ a b, related a b → SameOutcome further (f a) (g b)) :
    SameOutcome further (first >>= f) (second >>= g) := by
  cases h with
  | ok hrelated => exact hfurther _ _ hrelated
  | error hcause => exact .error hcause

mutual

/-- A node with another text wherever it quotes the passage. -/
def Node.reword (key : String → String) : Node → Node
  | .text content => .text (key content)
  | .literal value => .literal value
  | .hook children => .hook (rewordAll key children)
  | .link sides => .link ⟨key sides.text, key sides.target⟩
  | .call known attached => .call known (rewordHook key attached)
  | .unknownCall name raw attached => .unknownCall name (key raw) (rewordHook key attached)

/-- Nodes with another text wherever they quote the passage. -/
def rewordAll (key : String → String) : List Node → List Node
  | [] => []
  | node :: rest => node.reword key :: rewordAll key rest

/-- A hook with another text wherever it quotes the passage. -/
def rewordHook (key : String → String) : Option (List Node) → Option (List Node)
  | none => none
  | some children => some (rewordAll key children)

end

/-- A tree with another text wherever it quotes the passage: in texts, in the sides of links and in calls
that are kept as text. -/
def Program.reword (key : String → String) (program : Program) : Program :=
  ⟨rewordAll key program.nodes⟩

mutual

theorem reword_id : ∀ node : Node, node.reword id = node
  | .text _ | .literal _ | .link _ => rfl
  | .hook children => by rw [Node.reword, rewordAll_id children]
  | .call _ none | .unknownCall _ _ none => rfl
  | .call _ (some children) | .unknownCall _ _ (some children) => by
      simp only [Node.reword, rewordHook, rewordAll_id children, id_eq]

theorem rewordAll_id : ∀ nodes : List Node, rewordAll id nodes = nodes
  | [] => rfl
  | node :: rest => by rw [rewordAll, reword_id node, rewordAll_id rest]

end

theorem rewordAll_append (key : String → String) (nodes others : List Node) :
    rewordAll key (nodes ++ others) = rewordAll key nodes ++ rewordAll key others := by
  induction nodes with
  | nil => rfl
  | cons node rest ih => rw [List.cons_append, rewordAll, ih]; rfl

/-! ### Nodes of moved phrases -/

/-- The tokens of one passage are those of another one, moved; and wherever there is no bracket among
some of them in a row, the two passages have texts there that agree on a key. -/
structure Requotes (key : String → String) (f : Token → Token) (source moved : String) : Prop
    extends Moves f where
  tokens : tokensOf moved = (tokensOf source).map f
  quotes : ∀ {part first last}, part <:+: tokensOf source →
    (∀ token ∈ part, token.kind.isBracket = false) → part.head? = some first →
      part.getLast? = some last →
        key (slice moved (f first).start (f last).stop) = key (slice source first.start last.stop)

section Nodes

variable {key : String → String} {f : Token → Token} {source moved : String}

theorem Requotes.part (h : Requotes key f source moved) {part : List Token}
    (hpart : part <:+: tokensOf source) : part.map f <:+: tokensOf moved := by
  rw [h.tokens]
  exact hpart.map f

/-- Runs of tokens in a row span texts that agree, and that are both trimmed already. -/
theorem spanText_map (h : Requotes key f source moved) {part : List Token}
    (hpart : part <:+: tokensOf source) (hplain : ∀ token ∈ part, token.kind.isBracket = false) :
    key (spanText moved (part.map f)) = key (spanText source part) ∧
      key (trim (spanText moved (part.map f))) = key (trim (spanText source part)) := by
  cases hfirst : part.head? with
  | none =>
      rw [List.head?_eq_none_iff.1 hfirst]
      exact ⟨rfl, rfl⟩
  | some first =>
      have hne : part ≠ [] := List.ne_nil_of_mem (List.mem_of_head? hfirst)
      have hlast := List.getLast?_eq_some_getLast hne
      have hfirst' : (part.map f).head? = some (f first) := by rw [List.head?_map, hfirst]; rfl
      have hlast' : (part.map f).getLast? = some (f (part.getLast hne)) := by
        rw [List.getLast?_map, hlast]
        rfl
      rcases spanText_eq (tiles_tokensOf source) hpart hfirst hlast with
        ⟨middle, hsolid, hspan, hslice⟩
      rcases spanText_eq (tiles_tokensOf moved) (h.part hpart) hfirst' hlast' with
        ⟨middle', hsolid', hspan', hslice'⟩
      have hkey := h.quotes hpart hplain hfirst hlast
      rw [hspan, hspan', trim_of_solidText hsolid, trim_of_solidText hsolid', ← hslice, ← hslice']
      exact ⟨hkey, hkey⟩

theorem splitAtLastArrow?_map (hf : Moves f) (inside : List Token) :
    splitAtLastArrow? (inside.map f) =
      (splitAtLastArrow? inside).map (Prod.map (List.map f) (List.map f)) := by
  have hside : (fun token : Token => token.kind != .linkArrow) ∘ f =
      fun token => token.kind != .linkArrow := by
    funext token
    show ((f token).kind != .linkArrow) = _
    rw [hf.kind]
  simp only [splitAtLastArrow?, ← List.map_reverse, List.dropWhile_map, List.takeWhile_map, hside]
  cases inside.reverse.dropWhile fun token => token.kind != .linkArrow with
  | nil => rfl
  | cons arrow before => simp only [List.map_cons, Option.map_some, Prod.map, List.map_reverse]

theorem Link.ofTokens_map (h : Requotes key f source moved) {inside : List Token}
    (hpart : inside <:+: tokensOf source) (hplain : ∀ token ∈ inside, token.kind.isBracket = false) :
    (Node.link (Link.ofTokens moved (inside.map f))).reword key =
      (Node.link (Link.ofTokens source inside)).reword key := by
  unfold Link.ofTokens
  rw [splitAtLastArrow?_map h.toMoves]
  cases hsplit : splitAtLastArrow? inside with
  | none =>
      simp only [Option.map_none, Link.toSelf, Link.ofSides, Node.reword,
        (spanText_map h hpart hplain).2]
  | some sides =>
      rcases sides with ⟨text, target⟩
      rcases parts_of_splitAtLastArrow? hsplit with ⟨htext, htarget⟩
      have hfirst := spanText_map h (htext.trans hpart) fun token hmem =>
        hplain token (htext.subset hmem)
      have hsecond := spanText_map h (htarget.trans hpart) fun token hmem =>
        hplain token (htarget.subset hmem)
      simp only [Option.map_some, Prod.map, Link.ofSides, Node.reword, hfirst.2, hsecond.2]

theorem raw_map (h : Requotes key f source moved) {call : CallText} (hfits : call.Fits)
    (hpart : call.yield <:+: tokensOf source) : key ((call.map f).raw moved) = key (call.raw source) := by
  apply h.quotes hpart hfits.not_isBracket
  · rfl
  · exact List.getLast?_concat

/-- The node of a moved call is that of the call, up to the key, if its hook is. -/
theorem node_map (h : Requotes key f source moved) {call : CallText} (hfits : call.Fits)
    (hpart : call.yield <:+: tokensOf source) (pattern : Option Pattern)
    {hook hook' : Option (List Node)} (hhook : rewordHook key hook = rewordHook key hook') :
    (call.node source pattern hook).reword key = ((call.map f).node moved pattern hook').reword key := by
  have harguments : Arguments.ofTokens (call.map f).body = Arguments.ofTokens call.body :=
    Arguments.ofTokens_map h.toMoves call.body
  unfold CallText.node
  rw [harguments, name_map h.toMoves]
  cases pattern <;> simp only [Node.reword, hhook, raw_map h hfits hpart]

theorem check_map (hf : Moves f) (catalog : Catalog) (call : CallText) :
    SameOutcome Eq (call.check source catalog) ((call.map f).check moved catalog) := by
  have harguments : Arguments.ofTokens (call.map f).body = Arguments.ofTokens call.body :=
    Arguments.ofTokens_map hf call.body
  unfold CallText.check
  rw [harguments, name_map hf]
  cases catalog.check call.name (Arguments.ofTokens call.body) with
  | ok pattern => exact .ok rfl
  | error mismatch => exact .error rfl

/-- Nodes that are the same up to the key. -/
def SameNodes (key : String → String) (nodes others : List Node) : Prop :=
  rewordAll key nodes = rewordAll key others

theorem sameNodes_singleton {node other : Node} (h : node.reword key = other.reword key) :
    SameNodes key [node] [other] := by
  simp only [SameNodes, rewordAll, h]

mutual

/-- Making the nodes of a phrase that is moved has the same outcome. -/
theorem nodes_map (h : Requotes key f source moved) (catalog : Catalog) {level : Level} :
    ∀ {phrase : Phrase}, phrase.Fits level → phrase.yield <:+: tokensOf source →
      SameOutcome (SameNodes key) (phrase.nodes source catalog) ((phrase.map f).nodes moved catalog)
  | .prose run, hfits, hpart => by
      have hrun : run <:+: tokensOf source := hpart
      have hspan := spanText_map h hrun fun token hmem => not_isBracket_of_isRun (hfits.2 token hmem)
      have hblank := allBlank_spanText (tiles_tokensOf source) hrun hfits.1
      have hblank' := allBlank_spanText (tiles_tokensOf moved) (h.part hrun) (by simpa using hfits.1)
      rw [Phrase.map, Phrase.nodes, Phrase.nodes]
      simp only [proseNodes, hblank, hblank', Bool.false_eq_true, if_false]
      refine .ok (sameNodes_singleton ?_)
      rw [Node.reword, Node.reword, hspan.1]
  | .value token, _, _ => by
      rw [Phrase.map, Phrase.nodes, Phrase.nodes, literal?_map h.toMoves]
      exact .ok rfl
  | .link opening inside closing, hfits, hpart => by
      have hlink := Link.ofTokens_map h (inside_part_link.trans hpart) (hfits.2.1.not_isBracket rfl)
      exact .ok (sameNodes_singleton hlink.symm)
  | .hook opening children closing, hfits, hpart => by
      have hinner := nodesOf_map h catalog hfits.2.1 (inside_part_hook.trans hpart)
      refine hinner.bind fun nodes others hsame => .ok (sameNodes_singleton ?_)
      rw [Node.reword, Node.reword, hsame]
  | .call text, hfits, hpart => by
      refine (check_map h.toMoves catalog text).bind fun pattern other hpattern => ?_
      cases hpattern
      exact .ok (sameNodes_singleton (node_map h hfits hpart pattern rfl))
  | .hooked text opening children closing, hfits, hpart => by
      refine (check_map h.toMoves catalog text).bind fun pattern other hpattern => ?_
      cases hpattern
      have hinner := nodesOf_map h catalog hfits.2.2.1 (inside_part_hooked.trans hpart)
      refine hinner.bind fun nodes others hsame => .ok (sameNodes_singleton ?_)
      apply node_map h hfits.1 (call_part_hooked.trans hpart)
      rw [rewordHook, rewordHook, hsame]

/-- Making the nodes of phrases that are moved has the same outcome. -/
theorem nodesOf_map (h : Requotes key f source moved) (catalog : Catalog) {level : Level} :
    ∀ {phrases : List Phrase}, FitsAll level phrases → yieldAll phrases <:+: tokensOf source →
      SameOutcome (SameNodes key) (nodesOf source catalog phrases)
        (nodesOf moved catalog (mapAll f phrases))
  | [], _, _ => .ok rfl
  | phrase :: rest, hfits, hpart => by
      have hfront := nodes_map h catalog hfits.1 (first_part_yieldAll.trans hpart)
      have hback := nodesOf_map h catalog hfits.2 (rest_part_yieldAll.trans hpart)
      refine hfront.bind fun first first' hfirst => hback.bind fun others others' hothers => .ok ?_
      rw [SameNodes, rewordAll_append, rewordAll_append, hfirst, hothers]

end

end Nodes

/-- The place where reading stops moves with its token; the cause stays. -/
theorem withoutPlace_toError {f : Token → Token} (hf : Moves f) (source moved : String) (stop : Stop) :
    (stop.toError source).withoutPlace = ((stop.map f).toError moved).withoutPlace := by
  cases stop with
  | trailing token | atEnd => rfl
  | unexpected token =>
      show ParseError.noMatchingRule token.kind.name 0 "" = .noMatchingRule (f token).kind.name 0 ""
      rw [hf.kind]

/-- Two passages that have the same tokens, and texts that agree on a key, are both accepted, with trees
that agree on the key, or both refused for the same cause. -/
theorem parse_of_requotes {key : String → String} {f : Token → Token} {source moved : String}
    (h : Requotes key f source moved) (catalog : Catalog) :
    SameOutcome (fun program other => program.reword key = other.reword key) (parse catalog source)
      (parse catalog moved) := by
  have hread := readPhrases_map h.toMoves (tokensOf source)
  rw [← h.tokens] at hread
  rw [parse_eq, parse_eq, phrasesOf_eq, phrasesOf_eq, hread]
  cases hphrases : readPhrases (tokensOf source) with
  | error stop => exact .error (withoutPlace_toError h.toMoves source moved stop)
  | ok phrases =>
      rcases readPhrases_fits hphrases with ⟨hfits, hyield⟩
      have hnodes := nodesOf_map h catalog hfits (hyield ▸ List.infix_refl _)
      refine hnodes.bind fun nodes others hsame => .ok ?_
      rw [Program.reword, Program.reword, hsame]

/-- A change of some tokens of a passage that moves them to where another passage has the same text,
wherever there is no bracket among them. -/
structure Relocates (f : Token → Token) (source moved : String) (tokens : List Token) : Prop
    extends Moves f where
  quotes : ∀ {part first last}, part <:+: tokens → (∀ token ∈ part, token.kind.isBracket = false) →
    part.head? = some first → part.getLast? = some last →
      slice moved (f first).start (f last).stop = slice source first.start last.stop

/-- A passage whose tokens can be moved to another one has the tree of the other. -/
theorem parse_of_relocates {f : Token → Token} {source moved : String} {catalog : Catalog}
    {program : Program} (h : Relocates f source moved (tokensOf source))
    (htokens : tokensOf moved = (tokensOf source).map f)
    (hparse : parse catalog source = .ok program) : parse catalog moved = .ok program := by
  have hrequotes : Requotes id f source moved := ⟨h.toMoves, htokens, h.quotes⟩
  have hsame := parse_of_requotes hrequotes catalog
  rw [hparse] at hsame
  generalize hmoved : parse catalog moved = result at hsame
  cases hsame with
  | @ok _ other hrelated =>
      rw [Program.reword, Program.reword, rewordAll_id, rewordAll_id] at hrelated
      exact congrArg Except.ok hrelated.symm

end PassageMarkup
