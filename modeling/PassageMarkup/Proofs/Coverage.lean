/-
Module: PassageMarkup.Proofs.Coverage
Layer: Proofs
Purpose: A passage is accepted exactly if the grammar generates its tokens, and its tree then accounts
  for all of them. The nodes of a tree, in order and with children inside their hook, stand for ranges of
  tokens that follow each other without gap or overlap; no run of text is lost for being blank, because a
  token never is.
Imports: Proofs.RuleReading
Main exports: CallText.IsCall, Covers, parse_eq_ok_iff, covers_of_nodesOf, covers_of_parse,
  parse_empty_iff_isPassage
-/
import PassageMarkup.Proofs.RuleReading

namespace PassageMarkup

open Text

/-- A node is the call of a call's text, with the given hook: a known call with the arguments that its body
stands for, or an unknown one with its text in the source. -/
inductive CallText.IsCall (source : String) (text : CallText) (hook : Option (List Node)) : Node → Prop where
  | known {pattern : Pattern} : IsCall source text hook
      (.call ⟨text.name, (Arguments.ofTokens text.body).keyword?, (Arguments.ofTokens text.body).expressions,
        pattern⟩ hook)
  | unknown : IsCall source text hook
      (.unknownCall text.name (slice source text.head.start text.closing.stop) hook)

/-- Nodes of a level that stand, one after the other, for all of the given tokens. A node of text stands
for a run, a literal for its token, a link and a hook for all from bracket to bracket, the hook's children
for what is between, and a call for all from its head to its closing parenthesis or to the end of the
hook attached to it, which has the node's children inside. -/
inductive Covers (source : String) : Level → List Node → List Token → Prop where
  | nil {level : Level} : Covers source level [] []
  | text {level : Level} {run rest : List Token} {nodes : List Node} (hne : run ≠ [])
      (hrun : ∀ token ∈ run, level.isRun token.kind = true) (hrest : Covers source level nodes rest) :
      Covers source level (.text (spanText source run) :: nodes) (run ++ rest)
  | literal {token : Token} {value : Literal} {rest : List Token} {nodes : List Node}
      (hkind : token.kind = .string ∨ token.kind = .variable) (hvalue : token.literal? = some value)
      (hrest : Covers source .hook nodes rest) :
      Covers source .hook (.literal value :: nodes) (token :: rest)
  | link {level : Level} {opening closing : Token} {inside rest : List Token} {nodes : List Node}
      (hopening : opening.kind = .linkOpen) (hinside : Derives .segments inside)
      (hclosing : closing.kind = .linkClose) (hrest : Covers source level nodes rest) :
      Covers source level (.link (.ofTokens source inside) :: nodes)
        (opening :: (inside ++ closing :: rest))
  | hook {level : Level} {opening closing : Token} {inside rest : List Token}
      {children nodes : List Node} (hopening : opening.kind = .hookOpen)
      (hchildren : Covers source .hook children inside) (hclosing : closing.kind = .hookClose)
      (hrest : Covers source level nodes rest) :
      Covers source level (.hook children :: nodes) (opening :: (inside ++ closing :: rest))
  | call {level : Level} {text : CallText} {node : Node} {rest : List Token} {nodes : List Node}
      (htext : text.Fits) (hnode : text.IsCall source none node) (hrest : Covers source level nodes rest) :
      Covers source level (node :: nodes) (text.yield ++ rest)
  | hooked {level : Level} {text : CallText} {node : Node} {opening closing : Token}
      {inside rest : List Token} {children nodes : List Node} (htext : text.Fits)
      (hnode : text.IsCall source (some children) node) (hopening : opening.kind = .hookOpen)
      (hchildren : Covers source .hook children inside) (hclosing : closing.kind = .hookClose)
      (hrest : Covers source level nodes rest) :
      Covers source level (node :: nodes) (text.yield ++ opening :: (inside ++ closing :: rest))

/-! ### The parts of parsing -/

/-- A sequence of two computations succeeds if both do. -/
theorem except_bind_eq_ok {ε α β : Type} {first : Except ε α} {second : α → Except ε β} {b : β} :
    (first >>= second) = .ok b ↔ ∃ a, first = .ok a ∧ second a = .ok b := by
  cases first with
  | error e => simp [bind, Except.bind]
  | ok a => simp [bind, Except.bind]

theorem except_mapError_eq_ok {ε ε' α : Type} {result : Except ε α} {f : ε → ε'} {a : α} :
    result.mapError f = .ok a ↔ result = .ok a := by
  constructor
  · intro h
    cases result with
    | error e => cases h
    | ok b =>
        cases h
        rfl
  · rintro rfl
    rfl

theorem except_toOption_eq_some {ε α : Type} {result : Except ε α} {a : α} :
    result.toOption = some a ↔ result = .ok a := by
  cases result <;> simp [Except.toOption]

/-- A passage is accepted if its phrases can be read and each of them has nodes. -/
theorem parse_eq_ok_iff {catalog : Catalog} {source : String} {program : Program} :
    parse catalog source = .ok program ↔ ∃ phrases,
      readPhrases (tokensOf source) = .ok phrases ∧ nodesOf source catalog phrases = .ok program.nodes := by
  obtain ⟨nodes⟩ := program
  rw [parse_eq, phrasesOf_eq, except_bind_eq_ok]
  simp only [except_mapError_eq_ok, except_bind_eq_ok]
  constructor
  · rintro ⟨phrases, hphrases, others, hnodes, hprogram⟩
    cases hprogram
    exact ⟨phrases, hphrases, hnodes⟩
  · rintro ⟨phrases, hphrases, hnodes⟩
    exact ⟨phrases, hphrases, nodes, hnodes, rfl⟩

/-! ### Nodes without a catalog -/

theorem check_empty (source : String) (call : CallText) : call.check source .empty = .ok none := rfl

mutual

/-- A catalog that knows no call refuses none. -/
theorem exists_nodes_empty (source : String) :
    ∀ phrase : Phrase, ∃ nodes, phrase.nodes source .empty = .ok nodes
  | .prose _ => ⟨_, rfl⟩
  | .value _ => ⟨_, rfl⟩
  | .link _ _ _ => ⟨_, rfl⟩
  | .hook _ children _ => by
      obtain ⟨nodes, hnodes⟩ := exists_nodesOf_empty source children
      exact ⟨_, except_bind_eq_ok.2 ⟨nodes, hnodes, rfl⟩⟩
  | .call text => ⟨_, except_bind_eq_ok.2 ⟨none, check_empty source text, rfl⟩⟩
  | .hooked text _ children _ => by
      obtain ⟨nodes, hnodes⟩ := exists_nodesOf_empty source children
      exact ⟨_, except_bind_eq_ok.2
        ⟨none, check_empty source text, except_bind_eq_ok.2 ⟨nodes, hnodes, rfl⟩⟩⟩

theorem exists_nodesOf_empty (source : String) :
    ∀ phrases : List Phrase, ∃ nodes, nodesOf source .empty phrases = .ok nodes
  | [] => ⟨[], rfl⟩
  | phrase :: rest => by
      obtain ⟨first, hfirst⟩ := exists_nodes_empty source phrase
      obtain ⟨others, hothers⟩ := exists_nodesOf_empty source rest
      exact ⟨_, except_bind_eq_ok.2 ⟨first, hfirst, except_bind_eq_ok.2 ⟨others, hothers, rfl⟩⟩⟩

end

/-! ### Nodes and their tokens -/

/-- A call becomes a node that is this call, with the hook that it is given. -/
theorem CallText.isCall_node (source : String) (text : CallText) (pattern : Option Pattern)
    (hook : Option (List Node)) : text.IsCall source hook (text.node source pattern hook) := by
  cases pattern with
  | some pattern => exact .known
  | none => exact .unknown

section Nodes

variable {source : String} {catalog : Catalog} {tokens : List Token}

mutual

/-- The nodes of a phrase stand for its tokens. -/
theorem covers_of_nodes (htiles : Tiles 0 source.toList tokens) {level : Level} :
    ∀ {phrase : Phrase} {nodes others : List Node} {rest : List Token},
      phrase.nodes source catalog = .ok nodes → phrase.Fits level → phrase.yield <:+: tokens →
      Covers source level others rest → Covers source level (nodes ++ others) (phrase.yield ++ rest)
  | .prose run, nodes, others, rest, h, hfits, hpart, hrest => by
      obtain ⟨hne, hrun⟩ := hfits
      have hblank : allBlank (spanText source run) = false := allBlank_spanText htiles hpart hne
      have hnodes : proseNodes source run = [.text (spanText source run)] := by
        simp [proseNodes, hblank]
      cases h
      rw [hnodes]
      exact .text hne hrun hrest
  | .value token, nodes, others, rest, h, hfits, _, hrest => by
      obtain ⟨rfl, hkind⟩ := hfits
      obtain ⟨value, hvalue⟩ := exists_literal hkind
      cases h
      rw [hvalue]
      exact .literal hkind hvalue hrest
  | .link opening inside closing, nodes, others, rest, h, hfits, _, hrest => by
      obtain ⟨hopening, hinside, hclosing⟩ := hfits
      cases h
      simpa [Phrase.yield] using Covers.link hopening hinside hclosing hrest
  | .hook opening children closing, nodes, others, rest, h, hfits, hpart, hrest => by
      obtain ⟨hopening, hchildren, hclosing⟩ := hfits
      obtain ⟨inner, hinner, hnodes⟩ := except_bind_eq_ok.1 h
      cases hnodes
      have hcovers := covers_of_nodesOf htiles hinner hchildren (inside_part_hook.trans hpart)
      simpa [Phrase.yield] using Covers.hook hopening hcovers hclosing hrest
  | .call text, nodes, others, rest, h, hfits, _, hrest => by
      obtain ⟨pattern, _, hnodes⟩ := except_bind_eq_ok.1 h
      cases hnodes
      exact .call hfits (text.isCall_node source pattern none) hrest
  | .hooked text opening children closing, nodes, others, rest, h, hfits, hpart, hrest => by
      obtain ⟨htext, hopening, hchildren, hclosing⟩ := hfits
      obtain ⟨pattern, _, hhooked⟩ := except_bind_eq_ok.1 h
      obtain ⟨inner, hinner, hnodes⟩ := except_bind_eq_ok.1 hhooked
      cases hnodes
      have hcovers := covers_of_nodesOf htiles hinner hchildren (inside_part_hooked.trans hpart)
      have hnode := text.isCall_node source pattern (some inner)
      simpa [Phrase.yield] using Covers.hooked htext hnode hopening hcovers hclosing hrest

/-- The nodes of phrases stand for their tokens, one phrase after the other. -/
theorem covers_of_nodesOf (htiles : Tiles 0 source.toList tokens) {level : Level} :
    ∀ {phrases : List Phrase} {nodes : List Node}, nodesOf source catalog phrases = .ok nodes →
      FitsAll level phrases → yieldAll phrases <:+: tokens →
      Covers source level nodes (yieldAll phrases)
  | [], nodes, h, _, _ => by
      cases h
      exact .nil
  | phrase :: rest, nodes, h, hfits, hpart => by
      obtain ⟨hphrase, hrest⟩ := hfits
      obtain ⟨first, hfirst, hsecond⟩ := except_bind_eq_ok.1 h
      obtain ⟨others, hothers, hnodes⟩ := except_bind_eq_ok.1 hsecond
      cases hnodes
      exact covers_of_nodes htiles hfirst hphrase (first_part_yieldAll.trans hpart)
        (covers_of_nodesOf htiles hothers hrest (rest_part_yieldAll.trans hpart))

end

end Nodes

/-! ### Acceptance -/

/-- The nodes of an accepted passage stand for all its tokens. -/
theorem covers_of_parse {source : String} {catalog : Catalog} {program : Program}
    (h : parse catalog source = .ok program) :
    Covers source .passage program.nodes (tokensOf source) := by
  obtain ⟨phrases, hphrases, hnodes⟩ := parse_eq_ok_iff.1 h
  obtain ⟨hfits, hyield⟩ := readPhrases_fits hphrases
  have hcovers := covers_of_nodesOf (tiles_tokensOf source) hnodes hfits (hyield ▸ List.infix_refl _)
  rwa [hyield] at hcovers

/-- Without a catalog a passage is accepted exactly if the grammar generates its resolved tokens; and
the nodes of an accepted passage, under whatever catalog, stand for all of these tokens in order, each
token belonging to exactly one range. -/
theorem parse_empty_iff_isPassage (source : String) :
    ((∃ program, parse .empty source = .ok program) ↔ IsPassage (tokensOf source)) ∧
      ∀ catalog program, parse catalog source = .ok program →
        Covers source .passage program.nodes (tokensOf source) := by
  refine ⟨?_, ?_⟩
  · rw [← exists_readPhrases_iff]
    constructor
    · rintro ⟨program, h⟩
      obtain ⟨phrases, hphrases, _⟩ := parse_eq_ok_iff.1 h
      exact ⟨phrases, hphrases⟩
    · rintro ⟨phrases, hphrases⟩
      obtain ⟨nodes, hnodes⟩ := exists_nodesOf_empty source phrases
      exact ⟨⟨nodes⟩, parse_eq_ok_iff.2 ⟨phrases, hphrases, hnodes⟩⟩
  · intro catalog program h
    exact covers_of_parse h

/-- A call with a nested call among its arguments and a hook that holds a link, a variable and another
hook, then text. -/
theorem parse_empty_iff_isPassage_nested :
    parse .empty "(a: 1 (b:) 2)[[[x->y]] $v [z]] end" =
        .ok ⟨[.unknownCall "a" "(a: 1 (b:) 2)"
          (some [.link ⟨"x", "y"⟩, .literal (.variable "v"), .hook [.text "z"]]), .text "end"]⟩ ∧
      IsPassage (tokensOf "(a: 1 (b:) 2)[[[x->y]] $v [z]] end") ∧
      Covers "(a: 1 (b:) 2)[[[x->y]] $v [z]] end" .passage
        [.unknownCall "a" "(a: 1 (b:) 2)"
          (some [.link ⟨"x", "y"⟩, .literal (.variable "v"), .hook [.text "z"]]), .text "end"]
        (tokensOf "(a: 1 (b:) 2)[[[x->y]] $v [z]] end") := by
  have hparse : parse .empty "(a: 1 (b:) 2)[[[x->y]] $v [z]] end" =
      .ok ⟨[.unknownCall "a" "(a: 1 (b:) 2)"
        (some [.link ⟨"x", "y"⟩, .literal (.variable "v"), .hook [.text "z"]]), .text "end"]⟩ := by
    decide +kernel
  have hboth := parse_empty_iff_isPassage "(a: 1 (b:) 2)[[[x->y]] $v [z]] end"
  exact ⟨hparse, hboth.1.1 ⟨_, hparse⟩, hboth.2 .empty _ hparse⟩

end PassageMarkup
