/-
Module: PassageMarkup.Proofs.Levels
Layer: Proofs
Purpose: The levels of a tree and the phrases they come from. A level is a list of siblings: the nodes of
  the passage, or those inside a hook. In an accepted passage the nodes of every level stand for the phrases
  of a level, one node for each phrase, since no run of prose is ever blank; so what is true of the phrases
  of every level can be carried over to the tree level by level.
Imports: Proofs.Coverage, Proofs.Separation
Main exports: Siblings, Becomes, OnLevel, OnLevel.inside, OnLevel.becomes, Siblings.origin,
  exists_becomes_of_mem, isChain_of_becomes
-/
import PassageMarkup.Proofs.Coverage
import PassageMarkup.Proofs.Separation

namespace PassageMarkup

open Text

/-- The lists of siblings in a tree, each with its level: the nodes of the passage, and the nodes inside
the hook that another node is or has. -/
inductive Siblings (program : Program) : Level → List Node → Prop where
  | top : Siblings program .passage program.nodes
  | inside {level : Level} {nodes children : List Node} {node : Node}
      (houter : Siblings program level nodes) (hmem : node ∈ nodes)
      (hhook : node.hook? = some children) : Siblings program .hook children

/-! ### One node for each phrase -/

/-- The node that stands for a phrase, and what has been checked about it. -/
inductive Becomes (source : String) (catalog : Catalog) : Phrase → Node → Prop where
  | prose {run : List Token} : Becomes source catalog (.prose run) (.text (spanText source run))
  | value {token : Token} {value : Literal} (hvalue : token.literal? = some value) :
      Becomes source catalog (.value token) (.literal value)
  | link {opening closing : Token} {inside : List Token} :
      Becomes source catalog (.link opening inside closing) (.link (.ofTokens source inside))
  | hook {opening closing : Token} {children : List Phrase} {nodes : List Node}
      (hchildren : nodesOf source catalog children = .ok nodes) :
      Becomes source catalog (.hook opening children closing) (.hook nodes)
  | call {text : CallText} {pattern : Option Pattern}
      (hcheck : catalog.check text.name (Arguments.ofTokens text.body) = .ok pattern) :
      Becomes source catalog (.call text) (text.node source pattern none)
  | hooked {text : CallText} {pattern : Option Pattern} {opening closing : Token}
      {children : List Phrase} {nodes : List Node}
      (hcheck : catalog.check text.name (Arguments.ofTokens text.body) = .ok pattern)
      (hchildren : nodesOf source catalog children = .ok nodes) :
      Becomes source catalog (.hooked text opening children closing)
        (text.node source pattern (some nodes))

/-- What is known of the phrases of a level of a passage that can be read. -/
structure OnLevel (source : String) (level : Level) (phrases : List Phrase) : Prop where
  fits : FitsAll level phrases
  apart : ApartAll phrases
  part : yieldAll phrases <:+: tokensOf source

theorem onLevel_of_readPhrases {source : String} {phrases : List Phrase}
    (h : readPhrases (tokensOf source) = .ok phrases) : OnLevel source .passage phrases := by
  rcases readPhrases_fits h with ⟨hfits, hyield⟩
  exact ⟨hfits, readPhrases_apart h, hyield ▸ List.infix_refl _⟩

/-- The phrases inside a phrase, if it is or has a hook. -/
def Phrase.inside? : Phrase → Option (List Phrase)
  | .hook _ children _ => some children
  | .hooked _ _ children _ => some children
  | _ => none

section

variable {source : String} {catalog : Catalog} {level : Level}

theorem OnLevel.tail {phrase : Phrase} {rest : List Phrase}
    (h : OnLevel source level (phrase :: rest)) : OnLevel source level rest := by
  refine ⟨h.fits.2, h.apart.2.2, ?_⟩
  exact ((List.suffix_append phrase.yield (yieldAll rest)).isInfix).trans h.part

theorem OnLevel.part_of_mem {phrase : Phrase} {phrases : List Phrase}
    (h : OnLevel source level phrases) (hmem : phrase ∈ phrases) :
    phrase.yield <:+: tokensOf source := by
  induction phrases with
  | nil => cases hmem
  | cons first rest ih =>
      rcases List.mem_cons.1 hmem with rfl | hmem
      · exact ((List.prefix_append phrase.yield (yieldAll rest)).isInfix).trans h.part
      · exact ih h.tail hmem

theorem OnLevel.fits_of_mem {phrase : Phrase} {phrases : List Phrase}
    (h : OnLevel source level phrases) (hmem : phrase ∈ phrases) : phrase.Fits level :=
  fitsAll_iff.1 h.fits phrase hmem

/-- The inside of a hook is a level. -/
theorem OnLevel.inside {phrase : Phrase} {phrases children : List Phrase}
    (h : OnLevel source level phrases) (hmem : phrase ∈ phrases)
    (hinside : phrase.inside? = some children) : OnLevel source .hook children := by
  have hfits := h.fits_of_mem hmem
  have hapart := (apartAll_iff.1 h.apart).2 phrase hmem
  have hpart := h.part_of_mem hmem
  cases phrase with
  | hook opening inner closing =>
      cases hinside
      exact ⟨hfits.2.1, hapart, inside_part_hook.trans hpart⟩
  | hooked text opening inner closing =>
      cases hinside
      exact ⟨hfits.2.2.1, hapart, inside_part_hooked.trans hpart⟩
  | prose | value | link | call => cases hinside

theorem check_eq_ok {text : CallText} {pattern : Option Pattern}
    (h : text.check source catalog = .ok pattern) :
    catalog.check text.name (Arguments.ofTokens text.body) = .ok pattern :=
  except_mapError_eq_ok.1 h

/-- A phrase that fits has exactly one node. -/
theorem becomes_of_nodes {phrase : Phrase} {nodes : List Node} (hfits : phrase.Fits level)
    (hpart : phrase.yield <:+: tokensOf source) (h : phrase.nodes source catalog = .ok nodes) :
    ∃ node, nodes = [node] ∧ Becomes source catalog phrase node := by
  cases phrase with
  | prose run =>
      cases h
      have hblank : allBlank (spanText source run) = false :=
        allBlank_spanText (tiles_tokensOf source) hpart hfits.1
      exact ⟨_, by simp [proseNodes, hblank], .prose⟩
  | value token =>
      cases h
      rcases exists_literal hfits.2 with ⟨value, hvalue⟩
      exact ⟨.literal value, by simp [hvalue], .value hvalue⟩
  | link opening inside closing =>
      cases h
      exact ⟨_, rfl, .link⟩
  | hook opening children closing =>
      rcases except_bind_eq_ok.1 h with ⟨inner, hinner, hnodes⟩
      cases hnodes
      exact ⟨_, rfl, .hook hinner⟩
  | call text =>
      rcases except_bind_eq_ok.1 h with ⟨pattern, hcheck, hnodes⟩
      cases hnodes
      exact ⟨_, rfl, .call (check_eq_ok hcheck)⟩
  | hooked text opening children closing =>
      rcases except_bind_eq_ok.1 h with ⟨pattern, hcheck, hhooked⟩
      rcases except_bind_eq_ok.1 hhooked with ⟨inner, hinner, hnodes⟩
      cases hnodes
      exact ⟨_, rfl, .hooked (check_eq_ok hcheck) hinner⟩

/-- The phrases of a level and their nodes correspond one to one, in order. -/
theorem OnLevel.becomes {phrases : List Phrase} {nodes : List Node}
    (hlevel : OnLevel source level phrases) (h : nodesOf source catalog phrases = .ok nodes) :
    List.Forall₂ (Becomes source catalog) phrases nodes := by
  induction phrases generalizing nodes with
  | nil =>
      cases h
      exact .nil
  | cons phrase rest ih =>
      rcases except_bind_eq_ok.1 h with ⟨first, hfirst, hsecond⟩
      rcases except_bind_eq_ok.1 hsecond with ⟨others, hothers, hnodes⟩
      cases hnodes
      rcases becomes_of_nodes hlevel.fits.1 (hlevel.part_of_mem List.mem_cons_self) hfirst
        with ⟨node, rfl, hnode⟩
      exact .cons hnode (ih hlevel.tail hothers)

/-- Every node of a level stands for a phrase of it. -/
theorem exists_becomes_of_mem {phrases : List Phrase} {nodes : List Node} {node : Node}
    (h : List.Forall₂ (Becomes source catalog) phrases nodes) (hmem : node ∈ nodes) :
    ∃ phrase ∈ phrases, Becomes source catalog phrase node := by
  induction h with
  | nil => cases hmem
  | @cons phrase first phrases nodes hfirst _ ih =>
      rcases List.mem_cons.1 hmem with rfl | hmem
      · exact ⟨phrase, List.mem_cons_self, hfirst⟩
      · rcases ih hmem with ⟨other, hother, hbecomes⟩
        exact ⟨other, List.mem_cons_of_mem _ hother, hbecomes⟩

/-- What holds between a phrase and the next holds between their nodes, if nodes inherit it. -/
theorem isChain_of_becomes {P : Phrase → Phrase → Prop} {Q : Node → Node → Prop}
    {phrases : List Phrase} {nodes : List Node}
    (hinherit : ∀ {first second : Phrase} {node next : Node}, Becomes source catalog first node →
      Becomes source catalog second next → P first second → Q node next)
    (h : List.Forall₂ (Becomes source catalog) phrases nodes) (hchain : phrases.IsChain P) :
    nodes.IsChain Q := by
  induction h with
  | nil => exact .nil
  | cons hfirst hrest ih =>
      rw [List.isChain_cons] at hchain ⊢
      refine ⟨?_, ih hchain.2⟩
      cases hrest with
      | nil => simp
      | cons hsecond _ =>
          intro next hnext
          obtain rfl := Option.some.inj hnext
          exact hinherit hfirst hsecond (hchain.1 _ rfl)

/-! ### Every level of the tree -/

/-- A node that is or has a hook stands for a phrase that does, and the nodes inside the one are those of
the phrases inside the other. -/
theorem Becomes.inside {phrase : Phrase} {node : Node} {children : List Node}
    (h : Becomes source catalog phrase node) (hhook : node.hook? = some children) :
    ∃ inner, phrase.inside? = some inner ∧ nodesOf source catalog inner = .ok children := by
  cases h with
  | prose | value | link => cases hhook
  | hook hchildren =>
      cases hhook
      exact ⟨_, rfl, hchildren⟩
  | @call text pattern _ => cases pattern <;> cases hhook
  | @hooked text pattern _ _ inner nodes _ hchildren =>
      have hsame : nodes = children := by cases pattern <;> exact Option.some.inj hhook
      exact ⟨inner, rfl, hsame ▸ hchildren⟩

/-- Every level of the tree of an accepted passage has come from a level of its phrases. -/
theorem Siblings.origin {program : Program} {nodes : List Node}
    (hparse : parse catalog source = .ok program) (h : Siblings program level nodes) :
    ∃ phrases, OnLevel source level phrases ∧ nodesOf source catalog phrases = .ok nodes := by
  induction h with
  | top =>
      rcases parse_eq_ok_iff.1 hparse with ⟨phrases, hread, hnodes⟩
      exact ⟨phrases, onLevel_of_readPhrases hread, hnodes⟩
  | inside _ hmem hhook ih =>
      rcases ih with ⟨phrases, hlevel, hnodes⟩
      rcases exists_becomes_of_mem (hlevel.becomes hnodes) hmem with ⟨phrase, hphrase, hbecomes⟩
      rcases hbecomes.inside hhook with ⟨inner, hinner, hchildren⟩
      exact ⟨inner, hlevel.inside hphrase hinner, hchildren⟩

end

end PassageMarkup
