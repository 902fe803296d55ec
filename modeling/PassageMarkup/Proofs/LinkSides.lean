/-
Module: PassageMarkup.Proofs.LinkSides
Layer: Proofs
Purpose: What the links of a tree show of the passage. The opening brackets of links among the tokens of an
  accepted passage and the links of its tree, at whatever depth, correspond to each other one to one and in
  order. The next bracket behind such an opening bracket closes the link, and the last arrow between the
  two, if there is one, parts the link's sides: each side is all of the passage from one of these three to
  the next, trimmed.
Imports: Proofs.NormalForm, Proofs.Stretches
Main exports: LinkTokens, linkTokens, ShowsLink, LinkTokens.Shows, Node.links, Program.links,
  Link.ofTokens_of_arrow, Link.ofTokens_of_none, showsLink_ofTokens, Covers.shows, links_of_parse
-/
import PassageMarkup.Proofs.NormalForm
import PassageMarkup.Proofs.Stretches

namespace PassageMarkup

open Text

/-! ### Links among tokens -/

/-- The opening bracket of a link, the tokens behind it up to the next bracket, and that bracket, if there
is one. -/
structure LinkTokens where
  opening : Token
  inside : List Token
  next? : Option Token

/-- The links among tokens: every opening bracket of a link with what comes behind it, whatever that is. -/
def linkTokens : List Token → List LinkTokens
  | [] => []
  | token :: rest =>
      if token.kind = .linkOpen then
        ⟨token, rest.takeWhile (fun other => !other.kind.isBracket),
          (rest.dropWhile (fun other => !other.kind.isBracket)).head?⟩ :: linkTokens rest
      else linkTokens rest

theorem linkTokens_cons {token : Token} {rest : List Token} (h : token.kind ≠ .linkOpen) :
    linkTokens (token :: rest) = linkTokens rest := by
  rw [linkTokens, if_neg h]

theorem ne_linkOpen {kind : Kind} (h : kind.isBracket = false) : kind ≠ .linkOpen := by
  rintro rfl
  cases h

/-- There is no link among tokens without brackets. -/
theorem linkTokens_plain_append {tokens rest : List Token}
    (h : ∀ token ∈ tokens, token.kind.isBracket = false) :
    linkTokens (tokens ++ rest) = linkTokens rest := by
  induction tokens with
  | nil => rfl
  | cons token tokens ih =>
      rcases List.forall_mem_cons.1 h with ⟨hfirst, hothers⟩
      rw [List.cons_append, linkTokens_cons (ne_linkOpen hfirst), ih hothers]

/-- A link stands among the tokens with all that is between its brackets. -/
theorem linkTokens_link {opening closing : Token} {inside rest : List Token}
    (hopening : opening.kind = .linkOpen) (hinside : ∀ token ∈ inside, token.kind.isBracket = false)
    (hclosing : closing.kind = .linkClose) :
    linkTokens (opening :: (inside ++ closing :: rest)) =
      ⟨opening, inside, some closing⟩ :: linkTokens rest := by
  have hplain : ∀ token ∈ inside, (!token.kind.isBracket) = true := by simpa using hinside
  have hbracket : closing.kind.isBracket = true := by rw [hclosing, Kind.isBracket]
  have hrest : linkTokens (inside ++ closing :: rest) = linkTokens rest := by
    rw [linkTokens_plain_append hinside, linkTokens_cons (by simp [hclosing])]
  rw [linkTokens, if_pos hopening, List.dropWhile_append_of_pos hplain,
    List.takeWhile_append_of_pos hplain, hrest]
  simp [hbracket]

/-- Tokens of a passage from an opening to a closing bracket, and the link that they are. With the last
arrow between the brackets the sides are what stands in front of it and behind it, and without an arrow both
are all that stands between the brackets. -/
structure ShowsLink (source : String) (opening : Token) (inside : List Token) (closing : Token)
    (link : Link) : Prop where
  place : opening :: (inside ++ [closing]) <:+: tokensOf source
  opening_kind : opening.kind = .linkOpen
  inside_plain : ∀ token ∈ inside, token.kind.isBracket = false
  closing_kind : closing.kind = .linkClose
  with_arrow : ∀ text arrow target, inside = text ++ arrow :: target → arrow.kind = .linkArrow →
    (∀ token ∈ target, token.kind ≠ .linkArrow) →
    TrimmedAt source opening.stop arrow.start link.text ∧
      TrimmedAt source arrow.stop closing.start link.target
  without_arrow : (∀ token ∈ inside, token.kind ≠ .linkArrow) →
    TrimmedAt source opening.stop closing.start link.text ∧ link.target = link.text

/-- The next bracket behind an opening bracket closes the link, which the tokens up to there show. -/
def LinkTokens.Shows (source : String) (tokens : LinkTokens) (link : Link) : Prop :=
  ∃ closing, tokens.next? = some closing ∧
    ShowsLink source tokens.opening tokens.inside closing link

/-! ### Links of a tree -/

mutual

/-- The links of a node's tree in the order of the passage. -/
def Node.links : Node → List Link
  | .link link => [link]
  | .hook children => linksOf children
  | .call _ attached => linksOfHook attached
  | .unknownCall _ _ attached => linksOfHook attached
  | .text _ => []
  | .literal _ => []

/-- The links in the trees of a list. -/
def linksOf : List Node → List Link
  | [] => []
  | node :: rest => node.links ++ linksOf rest

/-- The links in the trees of a hook. -/
def linksOfHook : Option (List Node) → List Link
  | none => []
  | some children => linksOf children

end

/-- The links of a tree, at whatever depth, in the order of the passage. -/
def Program.links (program : Program) : List Link :=
  linksOf program.nodes

theorem CallText.IsCall.links_eq {source : String} {call : CallText} {hook : Option (List Node)}
    {node : Node} (h : call.IsCall source hook node) : node.links = linksOfHook hook := by
  cases h <;> rw [Node.links]

theorem links_of_hook? {node : Node} {children : List Node} (h : node.hook? = some children) :
    node.links = linksOf children := by
  cases node with
  | text | literal | link => cases h
  | hook inner =>
      cases h
      rw [Node.links]
  | call known attached =>
      obtain rfl : attached = some children := h
      rw [Node.links, linksOfHook]
  | unknownCall name raw attached =>
      obtain rfl : attached = some children := h
      rw [Node.links, linksOfHook]

theorem links_subset_linksOf {node : Node} {nodes : List Node} (h : node ∈ nodes) :
    node.links ⊆ linksOf nodes := by
  induction nodes with
  | nil => cases h
  | cons first rest ih =>
      rw [linksOf]
      rcases List.mem_cons.1 h with rfl | hmem
      · exact List.subset_append_left _ _
      · exact List.Subset.trans (ih hmem) (List.subset_append_right _ _)

/-- The links of every level are links of the tree. -/
theorem Siblings.linksOf_subset {program : Program} {level : Level} {nodes : List Node}
    (h : Siblings program level nodes) : linksOf nodes ⊆ program.links := by
  induction h with
  | top => exact List.Subset.refl _
  | inside _ hmem hhook ih =>
      rw [← links_of_hook? hhook]
      exact List.Subset.trans (links_subset_linksOf hmem) ih

/-! ### The sides of a link -/

section Sides

variable {source : String}

/-- The sides of a link with an arrow are the texts in front of its last arrow and behind it. -/
theorem Link.ofTokens_of_arrow {text target : List Token} {arrow : Token}
    (hinside : Derives .segments (text ++ arrow :: target))
    (hpart : text ++ arrow :: target <:+: tokensOf source) (harrow : arrow.kind = .linkArrow)
    (hlast : ∀ token ∈ target, token.kind ≠ .linkArrow) :
    Link.ofTokens source (text ++ arrow :: target) = ⟨spanText source text, spanText source target⟩ := by
  rcases hinside.segments_arrow harrow with ⟨htext, htarget⟩
  have hsplit : splitAtLastArrow? (text ++ arrow :: target) = some (text, target) :=
    splitAtLastArrow?_of_last harrow hlast
  rcases parts_of_splitAtLastArrow? hsplit with ⟨hbefore, hbehind⟩
  rw [Link.ofTokens, hsplit]
  show Link.ofSides _ _ = _
  rw [Link.ofSides, (tight_spanText (hbefore.trans hpart) htext).2,
    (tight_spanText (hbehind.trans hpart) htarget).2]

/-- Both sides of a link without an arrow are all its text. -/
theorem Link.ofTokens_of_none {inside : List Token} (hinside : Derives .segments inside)
    (hpart : inside <:+: tokensOf source) (hnone : ∀ token ∈ inside, token.kind ≠ .linkArrow) :
    Link.ofTokens source inside = ⟨spanText source inside, spanText source inside⟩ := by
  rw [Link.ofTokens, splitAtLastArrow?_eq_none_iff.2 hnone]
  show Link.ofSides _ _ = _
  rw [Link.ofSides, (tight_spanText hpart hinside.segments_ne_nil).2]

/-- The link that is made of the tokens between two brackets. -/
theorem showsLink_ofTokens {opening closing : Token} {inside : List Token}
    (hplace : opening :: (inside ++ [closing]) <:+: tokensOf source) (hopening : opening.kind = .linkOpen)
    (hinside : Derives .segments inside) (hclosing : closing.kind = .linkClose) :
    ShowsLink source opening inside closing (.ofTokens source inside) := by
  have hpart : inside <:+: tokensOf source :=
    List.IsInfix.trans ⟨[opening], [closing], by simp⟩ hplace
  have htiles := tiles_tokensOf source
  refine ⟨hplace, hopening, hinside.not_isBracket rfl, hclosing, ?_, ?_⟩
  · rintro text arrow target rfl harrow hlast
    rw [Link.ofTokens_of_arrow hinside hpart harrow hlast]
    rcases hinside.segments_arrow harrow with ⟨htext, htarget⟩
    rcases hplace with ⟨before, behind, htokens⟩
    have hfront : tokensOf source =
        before ++ opening :: (text ++ arrow :: (target ++ closing :: behind)) := by simp [← htokens]
    have hback : tokensOf source =
        (before ++ opening :: text) ++ arrow :: (target ++ closing :: behind) := by simp [← htokens]
    exact ⟨trimmedAt_of_tokens htiles hfront htext, trimmedAt_of_tokens htiles hback htarget⟩
  · intro hnone
    rw [Link.ofTokens_of_none hinside hpart hnone]
    rcases hplace with ⟨before, behind, htokens⟩
    have hwhole : tokensOf source = before ++ opening :: (inside ++ closing :: behind) := by
      simp [← htokens]
    exact ⟨trimmedAt_of_tokens htiles hwhole hinside.segments_ne_nil, rfl⟩

end Sides

/-- A hook has the links of its inside, in front of those behind it. -/
theorem shows_hook {source : String} {opening closing : Token} {inside behind : List Token}
    {children : List Node} {links : List Link} (hopening : opening.kind = .hookOpen)
    (hclosing : closing.kind = .hookClose)
    (hchildren : ∀ {behind : List Token} {links : List Link},
      List.Forall₂ (LinkTokens.Shows source) (linkTokens behind) links →
      List.Forall₂ (LinkTokens.Shows source) (linkTokens (inside ++ behind)) (linksOf children ++ links))
    (hbehind : List.Forall₂ (LinkTokens.Shows source) (linkTokens behind) links) :
    List.Forall₂ (LinkTokens.Shows source) (linkTokens (opening :: (inside ++ closing :: behind)))
      (linksOf children ++ links) := by
  rw [linkTokens_cons (by simp [hopening])]
  apply hchildren
  rwa [linkTokens_cons (by simp [hclosing])]

/-- Nodes have the links of the tokens for which they stand, in order. The induction carries what comes
behind these tokens, so that no cut between two nodes can part a bracket from the next one. -/
theorem Covers.shows {source : String} {level : Level} {nodes : List Node} {tokens : List Token}
    (h : Covers source level nodes tokens) (hpart : tokens <:+: tokensOf source) :
    ∀ {behind : List Token} {links : List Link},
      List.Forall₂ (LinkTokens.Shows source) (linkTokens behind) links →
      List.Forall₂ (LinkTokens.Shows source) (linkTokens (tokens ++ behind)) (linksOf nodes ++ links) := by
  induction h with
  | nil =>
      intro behind links hbehind
      exact hbehind
  | @text level run rest nodes _ hrun _ ih =>
      intro behind links hbehind
      have hplain : ∀ token ∈ run, token.kind.isBracket = false := fun token hmem =>
        not_isBracket_of_isRun (hrun token hmem)
      rw [List.append_assoc, linkTokens_plain_append hplain, linksOf, Node.links, List.nil_append]
      exact ih (List.IsInfix.trans (List.suffix_append run rest).isInfix hpart) hbehind
  | @literal token value rest nodes hkind _ _ ih =>
      intro behind links hbehind
      have hopen : token.kind ≠ .linkOpen := by
        rcases hkind with hkind | hkind <;> simp [hkind]
      rw [List.cons_append, linkTokens_cons hopen, linksOf, Node.links, List.nil_append]
      exact ih (List.IsInfix.trans (List.suffix_cons token rest).isInfix hpart) hbehind
  | @link level opening closing inside rest nodes hopening hinside hclosing _ ih =>
      intro behind links hbehind
      have hplace : opening :: (inside ++ [closing]) <:+: tokensOf source :=
        List.IsInfix.trans ⟨[], rest, by simp⟩ hpart
      have hrest : rest <:+: tokensOf source :=
        List.IsInfix.trans ⟨opening :: (inside ++ [closing]), [], by simp⟩ hpart
      have hshows := showsLink_ofTokens hplace hopening hinside hclosing
      rw [List.cons_append, List.append_assoc, List.cons_append,
        linkTokens_link hopening (hinside.not_isBracket rfl) hclosing, linksOf, Node.links,
        List.singleton_append, List.cons_append]
      exact .cons ⟨closing, rfl, hshows⟩ (ih hrest hbehind)
  | @hook level opening closing inside rest children nodes hopening _ hclosing _ ihChildren ih =>
      intro behind links hbehind
      have hchildren : inside <:+: tokensOf source :=
        List.IsInfix.trans ⟨[opening], closing :: rest, by simp⟩ hpart
      have hrest : rest <:+: tokensOf source :=
        List.IsInfix.trans ⟨opening :: (inside ++ [closing]), [], by simp⟩ hpart
      rw [List.cons_append, List.append_assoc, List.cons_append, linksOf, Node.links, List.append_assoc]
      exact shows_hook hopening hclosing (ihChildren hchildren) (ih hrest hbehind)
  | @call level text node rest nodes htext hnode _ ih =>
      intro behind links hbehind
      rw [List.append_assoc, linkTokens_plain_append htext.not_isBracket, linksOf, hnode.links_eq,
        linksOfHook, List.nil_append]
      exact ih (List.IsInfix.trans (List.suffix_append text.yield rest).isInfix hpart) hbehind
  | @hooked level text node opening closing inside rest children nodes htext hnode hopening _ hclosing _
      ihChildren ih =>
      intro behind links hbehind
      have hchildren : inside <:+: tokensOf source :=
        List.IsInfix.trans ⟨text.yield ++ [opening], closing :: rest, by simp⟩ hpart
      have hrest : rest <:+: tokensOf source :=
        List.IsInfix.trans ⟨text.yield ++ opening :: (inside ++ [closing]), [], by simp⟩ hpart
      rw [List.append_assoc, linkTokens_plain_append htext.not_isBracket, List.cons_append,
        List.append_assoc, List.cons_append, linksOf, hnode.links_eq, linksOfHook, List.append_assoc]
      exact shows_hook hopening hclosing (ihChildren hchildren) (ih hrest hbehind)

/-- In an accepted passage all opening brackets of links among the resolved tokens and the links of the tree
correspond to each other, one to one and in order. Such a bracket is followed, as the next bracket, by the
closing bracket of its link; the last arrow between them, if there is one, parts the link's sides, which are
the slices of the passage between these tokens, on character boundaries, not blank, and trimmed; without an
arrow both sides are the one slice between the brackets. These are the link nodes of the tree at any
depth. -/
theorem links_of_parse {catalog : Catalog} {source : String} {program : Program}
    (hparse : parse catalog source = .ok program) :
    List.Forall₂ (LinkTokens.Shows source) (linkTokens (tokensOf source)) program.links ∧
      ∀ {level : Level} {nodes : List Node} {link : Link}, Siblings program level nodes →
        .link link ∈ nodes → link ∈ program.links := by
  constructor
  · have hnone : List.Forall₂ (LinkTokens.Shows source) (linkTokens []) [] := .nil
    have hshows := (covers_of_parse hparse).shows (List.infix_refl _) hnone
    rwa [List.append_nil, List.append_nil] at hshows
  · intro level nodes link hsiblings hmem
    apply hsiblings.linksOf_subset
    apply links_subset_linksOf hmem
    rw [Node.links]
    exact List.mem_singleton_self link

/-- A link without an arrow, and a link inside a hook whose brackets stand in one run, with an arrow in a
string and two more. -/
theorem links_of_parse_inside :
    ∃ program first second,
      parse .builtin "[[é  ü]] (box:)[[[é->\"->\"  x -> y ]]]" = .ok program ∧
        linkTokens (tokensOf "[[é  ü]] (box:)[[[é->\"->\"  x -> y ]]]") = [first, second] ∧
        first.Shows "[[é  ü]] (box:)[[[é->\"->\"  x -> y ]]]" ⟨"é  ü", "é  ü"⟩ ∧
        second.Shows "[[é  ü]] (box:)[[[é->\"->\"  x -> y ]]]" ⟨"é->\"->\"  x", "y"⟩ := by
  have hlinks : (parse .builtin "[[é  ü]] (box:)[[[é->\"->\"  x -> y ]]]").toOption.map Program.links =
      some [⟨"é  ü", "é  ü"⟩, ⟨"é->\"->\"  x", "y"⟩] := by decide +kernel
  cases hparse : parse .builtin "[[é  ü]] (box:)[[[é->\"->\"  x -> y ]]]" with
  | error e =>
      rw [hparse] at hlinks
      cases hlinks
  | ok program =>
      rw [hparse] at hlinks
      have hshows := (links_of_parse hparse).1
      rw [Option.some.inj hlinks] at hshows
      generalize linkTokens (tokensOf "[[é  ü]] (box:)[[[é->\"->\"  x -> y ]]]") = tokens at hshows ⊢
      cases hshows with
      | @cons first _ _ _ hfirst hrest =>
          cases hrest with
          | @cons second _ _ _ hsecond hnone =>
              cases hnone
              exact ⟨program, first, second, rfl, rfl, hfirst, hsecond⟩

end PassageMarkup
