/-
Module: PassageMarkup.Proofs.WrittenLinks
Layer: Proofs
Purpose: Links written out. The written form of a link puts its sides between `[[`, `->` and `]]` without
  any blanks. Neither `->` nor `]]` goes on with a token in front of it, a string apart: what is a token at
  the end of a side stays one when these follow. So a side without quotes keeps its tokens, wherever it is
  written, and the arrow that is written is the last of the link. Hence every link of an accepted passage
  is the tree of its written form.
Imports: Proofs.BracketRuns, Proofs.Gaps, Proofs.LinkSides, Proofs.Slices
Main exports: Seals, seals_arrow, seals_closeTwo, leading?_sealed, Lexes.sealed, Derives.segments_of_kinds,
  Link.exists_sides, lexes_side, readPhrases_link, parse_written
-/
import PassageMarkup.Proofs.BracketRuns
import PassageMarkup.Proofs.Gaps
import PassageMarkup.Proofs.LinkSides
import PassageMarkup.Proofs.Slices

namespace PassageMarkup

open Text Recognise

/-! ### Tokens in front of a seal -/

/-- A text that no token in front of it goes on with, a string or the first of two closing brackets
apart. -/
structure Seals (next : List Char) : Prop where
  boundary : atBoundary next = true
  stops : ∀ {kind : Kind} {front : List Char} {n : Nat}, front ≠ [] → front.head? ≠ some '"' →
    front ≠ [']'] → kind.recognise (front ++ next) = some n → n ≤ front.length

theorem string_eq_none {front back : List Char} (hne : front ≠ []) (hquote : front.head? ≠ some '"') :
    Recognise.string (front ++ back) = none := by
  rw [Option.eq_none_iff_forall_ne_some]
  intro n hread
  rcases string_eq_some.1 hread with ⟨rest, _, hcs, _⟩
  rcases List.exists_cons_of_ne_nil hne with ⟨c, front, rfl⟩
  obtain rfl : c = '"' := (List.cons.inj hcs).1
  exact hquote rfl

theorem seals_closeTwo (rest : List Char) : Seals (']' :: ']' :: rest) where
  boundary := atBoundary_bracket (by decide) _
  stops := by
    intro kind front n hne hquote hpair hread
    apply Nat.le_of_not_lt
    intro hpast
    rcases Kind.reach (by decide) hne hread hpast with rfl | hfront
    · have hnone := @string_eq_none front (']' :: ']' :: rest) hne hquote
      exact Option.some_ne_none n (hread.symm.trans hnone)
    · exact hpair hfront

/-- The head of a call ends with its colon. -/
theorem callHead_colon {cs : List Char} {n : Nat} (h : callHead cs = some n) :
    ∃ k rest, n = k + 1 ∧ cs.drop k = ':' :: rest := by
  rcases followedBy_eq_some.1 h with ⟨k, m, _, hcolon, hsum⟩
  rcases exactly_eq_some.1 hcolon with ⟨⟨rest, hrest⟩, hone⟩
  have hone : m = 1 := hone.symm
  exact ⟨k, rest, by omega, hrest.symm⟩

/-- A name within the head of a call may hold hyphens, but no `>`, and what comes last is a colon; so there
is no arrow in the head of a call. -/
theorem callHead_le_of_arrow {front rest : List Char} {n : Nat}
    (h : callHead (front ++ '-' :: '>' :: rest) = some n) : n ≤ front.length := by
  apply Nat.le_of_not_lt
  intro hpast
  have hnear : ¬ front.length + 1 < n := by
    intro hfar
    have hlonger : Kind.callHead.recognise ((front ++ ['-']) ++ '>' :: rest) = some n := by
      rw [List.append_assoc]
      exact h
    have hholds := Kind.alphabet_of_past hlonger (by simpa using hfar)
    exact absurd hholds (by decide)
  rcases callHead_colon h with ⟨k, others, rfl, hdrop⟩
  obtain rfl : k = front.length := by omega
  rw [List.drop_left] at hdrop
  exact absurd (List.cons.inj hdrop).1 (by decide)

theorem seals_arrow (rest : List Char) : Seals ('-' :: '>' :: rest) where
  boundary := rfl
  stops := by
    intro kind front n hne hquote _ hread
    apply Nat.le_of_not_lt
    intro hpast
    have hpos : 0 < front.length := List.length_pos_iff.2 hne
    have hholds := Kind.alphabet_of_past hread hpast
    cases kind with
    | linkArrow =>
        -- two characters, of which the second would be the hyphen of the arrow
        rcases exactly_eq_some.1 hread with ⟨⟨others, hothers⟩, hlength⟩
        have hlength : n = 2 := hlength.symm
        rcases List.length_eq_one_iff.1 (by omega : front.length = 1) with ⟨c, rfl⟩
        simp at hothers
    | callHead => exact absurd (callHead_le_of_arrow hread) (Nat.not_le.2 hpast)
    | string =>
        have hnone := @string_eq_none front ('-' :: '>' :: rest) hne hquote
        exact Option.some_ne_none n (hread.symm.trans hnone)
    | arithmetic =>
        rcases List.exists_of_findSome?_eq_some hread with ⟨sign, hsign, hfits⟩
        have hone : n = 1 := by
          simp only [List.mem_cons, List.not_mem_nil, or_false] at hsign
          rcases hsign with rfl | rfl | rfl | rfl <;> exact (exactly_eq_some.1 hfits).2.symm
        omega
    | text => exact absurd (text_le_of_endsWord (by decide) hne hread) (Nat.not_le.2 hpast)
    | _ => exact absurd hholds (by decide)

/-- A leading token stays as it is when the text behind it is sealed. -/
theorem leading?_sealed {front next : List Char} {kind : Kind} {n : Nat} (hseal : Seals next)
    (hquote : front.head? ≠ some '"') (hbracket : kind.isBracket = false)
    (h : leading? front = some (kind, n)) : leading? (front ++ next) = some (kind, n) := by
  have hne : front ≠ [] := by
    rintro rfl
    cases h
  have hpair : front ≠ [']'] := by
    rintro rfl
    have hclose : leading? [']'] = some (.hookClose, 1) := by decide
    rw [hclose] at h
    cases h
    cases hbracket
  -- whatever leads the longer text ends in front of the seal, so the cut there leaves it as it is
  rcases exists_leading (show front ++ next ≠ [] by simp [hne]) with ⟨found, m, hfound⟩
  have hle : m ≤ front.length := hseal.stops hne hquote hpair (recognise_of_leading hfound)
  have hcut := leading?_cut (cleanCut_of_atBoundary hseal.boundary) hfound hle
  rw [hfound, ← hcut, h]

theorem head_ne_of_not_mem {cs : List Char} {c : Char} (h : c ∉ cs) : cs.head? ≠ some c :=
  fun hhead => h (List.mem_of_head? hhead)

/-- A text without quotes and brackets keeps its tokens when a seal follows. -/
theorem Lexes.sealed {offset : Nat} {cs next : List Char} {tokens others : List Token}
    (h : Lexes offset cs tokens) (hseal : Seals next) (hquote : '"' ∉ cs)
    (hplain : ∀ token ∈ tokens, token.kind.isBracket = false)
    (hrest : Lexes (offset + byteLength cs) next others) :
    Lexes offset (cs ++ next) (tokens ++ others) := by
  induction h with
  | nil => exact hrest
  | @blank offset gap rest tokens hleading _ ih =>
      have hlater : '"' ∉ rest := fun hmem => hquote (List.mem_append_right gap hmem)
      have hsealed := leading?_sealed hseal (head_ne_of_not_mem hquote) rfl hleading
      rw [List.append_assoc] at hsealed ⊢
      rw [byteLength_append, ← Nat.add_assoc] at hrest
      exact .blank hsealed (ih hlater hplain hrest)
  | @token offset kind text rest tokens hleading hkind _ ih =>
      have hlater : '"' ∉ rest := fun hmem => hquote (List.mem_append_right text hmem)
      rcases List.forall_mem_cons.1 hplain with ⟨hfirst, hothers⟩
      have hsealed := leading?_sealed hseal (head_ne_of_not_mem hquote) hfirst hleading
      rw [List.append_assoc] at hsealed ⊢
      rw [byteLength_append, ← Nat.add_assoc] at hrest
      exact .token hsealed hkind (ih hlater hothers hrest)

theorem leading?_arrow (rest : List Char) : leading? ('-' :: '>' :: rest) = some (.linkArrow, 2) := by
  have hblank : isBlank '-' = false := by decide
  apply leading?_of_first [.whitespace, .linkOpen, .linkClose] _ rfl
  · simp [Kind.recognise, exactly]
  · simp [Kind.recognise, exactly, run, runLength, hblank]

theorem Lexes.arrow {offset : Nat} {rest : List Char} {tokens : List Token}
    (h : Lexes (offset + 2) rest tokens) :
    Lexes offset ('-' :: '>' :: rest) (⟨.linkArrow, "->", offset, offset + 2⟩ :: tokens) := by
  have hleading : leading? (['-', '>'] ++ rest) = some (.linkArrow, ['-', '>'].length) := leading?_arrow rest
  exact .token hleading (by simp) h

/-! ### The tokens of a side -/

/-- What holds of the kinds of tokens holds of tokens of the same kinds. -/
theorem forall_of_kinds (P : Kind → Prop) {tokens others : List Token}
    (hkinds : others.map Token.kind = tokens.map Token.kind) (h : ∀ token ∈ tokens, P token.kind) :
    ∀ token ∈ others, P token.kind := by
  intro token hmem
  have hkind : token.kind ∈ tokens.map Token.kind := hkinds ▸ List.mem_map_of_mem hmem
  rcases List.mem_map.1 hkind with ⟨other, hother, hsame⟩
  exact hsame ▸ h other hother

/-- Whether tokens are segments of a link depends on their kinds only. -/
theorem Derives.segments_of_kinds {tokens : List Token} (h : Derives .segments tokens) :
    ∀ {others : List Token}, others.map Token.kind = tokens.map Token.kind →
      Derives .segments others := by
  have hone : ∀ {run others : List Token}, Derives .segment run →
      others.map Token.kind = run.map Token.kind → Derives .segment others := by
    intro run others hsegment hkinds
    cases hsegment with
    | segment hne hrun =>
        refine .segment ?_ (forall_of_kinds (·.isLinkText = true) hkinds hrun)
        rintro rfl
        exact hne (List.map_eq_nil_iff.1 hkinds.symm)
  generalize hsymbol : Symbol.segments = symbol at h
  induction h with
  | segmentsOne hsegment =>
      intro others hkinds
      exact .segmentsOne (hone hsegment hkinds)
  | @segmentsCons segment rest arrow hsegment harrow _ _ ih =>
      intro others hkinds
      rw [List.map_append, List.map_cons] at hkinds
      rcases List.map_eq_append_iff.1 hkinds with ⟨first, behind, rfl, hfirst, hbehind⟩
      rcases List.map_eq_cons_iff.1 hbehind with ⟨middle, last, rfl, hmiddle, hlast⟩
      exact .segmentsCons (hone hsegment hfirst) (hmiddle.trans harrow) (ih hsymbol hlast)
  | _ => cases hsymbol

/-- The sides of a link are texts of the passage. Written with an arrow between them they are the inside of
a link, also if there is no arrow in the passage; the arrow between them is then the last one. -/
theorem Link.exists_sides {source : String} {inside : List Token} (hinside : Derives .segments inside)
    (hpart : inside <:+: tokensOf source) :
    ∃ text arrow target, Derives .segments (text ++ arrow :: target) ∧ arrow.kind = .linkArrow ∧
      (∀ token ∈ target, token.kind ≠ .linkArrow) ∧ text <:+: tokensOf source ∧
      target <:+: tokensOf source ∧
      Link.ofTokens source inside = ⟨spanText source text, spanText source target⟩ := by
  cases hsplit : splitAtLastArrow? inside with
  | none =>
      have hnone := splitAtLastArrow?_eq_none_iff.1 hsplit
      exact ⟨inside, ⟨.linkArrow, "->", 0, 0⟩, inside, hinside.segments_append rfl hinside, rfl, hnone,
        hpart, hpart, Link.ofTokens_of_none hinside hpart hnone⟩
  | some sides =>
      rcases sides with ⟨text, target⟩
      rcases parts_of_splitAtLastArrow? hsplit with ⟨htext, htarget⟩
      have hlast := not_arrow_of_splitAtLastArrow? hsplit
      rcases splitAtLastArrow?_eq_some hsplit with ⟨arrow, harrow, rfl⟩
      exact ⟨text, arrow, target, hinside, harrow, hlast, htext.trans hpart, htarget.trans hpart,
        Link.ofTokens_of_arrow hinside hpart harrow hlast⟩

/-- A text of the passage without brackets has tokens of the same kinds wherever it is written. -/
theorem lexes_side {source : String} {part : List Token} (hpart : part <:+: tokensOf source)
    (hne : part ≠ []) (hplain : ∀ token ∈ part, token.kind.isBracket = false) (offset : Nat) :
    ∃ tokens, Lexes offset (spanText source part).toList tokens ∧
      tokens.map Token.kind = part.map Token.kind := by
  have hfirst := List.head?_eq_some_head hne
  have hlast := List.getLast?_eq_some_getLast hne
  rcases (resolved_resolveFrom [] (scan source)).infix_of_plain hplain hpart with
    ⟨before, behind, htokens⟩
  rcases spanText_eq (tiles_tokensOf source) hpart hfirst hlast with ⟨middle, _, hspan, hslice⟩
  have hscan := scan_slice_chosen htokens.symm hfirst hlast
  rw [hslice, ← hspan] at hscan
  rcases exists_lexes offset (spanText source part).toList with ⟨tokens, hlexes⟩
  have hmoved := (scan?_of_lexes (hlexes.shiftLeft offset 0 rfl)).2
  refine ⟨tokens, hlexes, ?_⟩
  have hkinds := congrArg (List.map Token.kind) (hmoved.symm.trans hscan)
  rwa [List.map_map, List.map_map] at hkinds

/-! ### A passage that is one link -/

/-- Segments go into a link as they come. -/
theorem Derives.reads_segments {inside : List Token} (h : Derives .segments inside) (opening : Token) :
    awaitsSegment inside.reverse = false ∧
      Reads ⟨[], [], .linking opening []⟩ inside ⟨[], [], .linking opening inside.reverse⟩ := by
  rcases accepts_of_derives h [] [] opening [] with ⟨last, hawaits, hreads⟩
  -- the state holds the tokens that it has read
  have hyield : last.reverse = inside := by
    simpa [Reader.yield, hooksYield, yieldAll, Reading.yield] using hreads.yield
  have hlast : last = inside.reverse := by rw [← hyield, List.reverse_reverse]
  exact hlast ▸ ⟨hawaits, hreads⟩

/-- The tokens of a link are read as the link. -/
theorem readPhrases_link {opening closing : Token} {inside : List Token}
    (hopening : opening.kind = .linkOpen) (hinside : Derives .segments inside)
    (hclosing : closing.kind = .linkClose) :
    readPhrases (opening :: (inside ++ [closing])) = .ok [.link opening inside closing] := by
  rcases hinside.reads_segments opening with ⟨hawaits, hreads⟩
  have hlink : Reads .start (opening :: (inside ++ [closing]))
      ⟨[], [.link opening inside.reverse.reverse closing], .prose []⟩ :=
    .cons (.openLink hopening) (hreads.append (Steps.closeLink hawaits hclosing).reads)
  apply readFrom_eq_ok_iff.2
  refine ⟨_, hlink, ?_⟩
  simp [Reader.finish, endRun]

/-- The tokens of a link have no run of brackets to resolve. -/
theorem resolveFrom_link {opening closing : Token} {inside : List Token}
    (hopening : opening.kind = .linkOpen) (hinside : ∀ token ∈ inside, token.kind.isBracket = false)
    (hclosing : closing.kind = .linkClose) :
    resolveFrom [] (opening :: (inside ++ [closing])) = opening :: (inside ++ [closing]) := by
  have hnext : ∀ next ∈ (inside ++ [closing]).head?, next.kind = .hookOpen → next.start ≠ opening.stop := by
    intro next hhead hkind
    have hmem := List.mem_of_mem_head? hhead
    rcases List.mem_append.1 hmem with hmem | hmem
    · have hplain := hinside next hmem
      rw [hkind] at hplain
      cases hplain
    · rw [List.mem_singleton.1 hmem, hclosing] at hkind
      cases hkind
  rw [resolveFrom_linkOpen hopening hnext, resolveFrom_plain_append hinside,
    resolveFrom_linkClose hclosing, resolveFrom]

/-- A passage that scans into the tokens of a link has these tokens, and the link as its tree. -/
theorem parse_link {catalog : Catalog} {source : String} {opening closing : Token} {inside : List Token}
    (hscan : scan source = opening :: (inside ++ [closing])) (hopening : opening.kind = .linkOpen)
    (hinside : Derives .segments inside) (hclosing : closing.kind = .linkClose) :
    tokensOf source = opening :: (inside ++ [closing]) ∧
      parse catalog source = .ok ⟨[.link (.ofTokens source inside)]⟩ := by
  have htokens : tokensOf source = opening :: (inside ++ [closing]) := by
    rw [tokensOf, resolveBrackets, hscan]
    exact resolveFrom_link hopening (hinside.not_isBracket rfl) hclosing
  refine ⟨htokens, parse_eq_ok_iff.2 ⟨[.link opening inside closing], ?_, rfl⟩⟩
  rw [htokens]
  exact readPhrases_link hopening hinside hclosing

/-! ### The written form -/

section Written

variable {link : Link} {text target : List Token}

theorem toList_written (link : Link) : link.written.toList =
    '[' :: '[' :: (link.text.toList ++ '-' :: '>' :: (link.target.toList ++ [']', ']'])) := by
  simp [Link.written]

/-- The written form of a link has the tokens of its sides between those of `[[`, `->` and `]]`. -/
theorem scan_written (htext : Lexes 2 link.text.toList text)
    (htarget : Lexes (2 + byteLength link.text.toList + 2) link.target.toList target)
    (htextPlain : ∀ token ∈ text, token.kind.isBracket = false)
    (htargetPlain : ∀ token ∈ target, token.kind.isBracket = false)
    (htextQuote : '"' ∉ link.text.toList) (htargetQuote : '"' ∉ link.target.toList) :
    ∃ opening arrow closing, opening.kind = .linkOpen ∧ arrow.kind = .linkArrow ∧
      closing.kind = .linkClose ∧
      scan link.written = opening :: (text ++ arrow :: (target ++ [closing])) := by
  have hbehind := htarget.sealed (seals_closeTwo []) htargetQuote htargetPlain Lexes.nil.closeTwo
  have hfront := htext.sealed (seals_arrow _) htextQuote htextPlain hbehind.arrow
  have hwritten := @Lexes.openTwo 0 _ _ hfront
  rw [← toList_written] at hwritten
  refine ⟨_, _, _, ?_, ?_, ?_, (scan?_of_lexes hwritten).2⟩ <;> rfl

/-- In its written form a link spans the same sides. -/
theorem spanText_written (htext : Lexes 2 link.text.toList text)
    (htarget : Lexes (2 + byteLength link.text.toList + 2) link.target.toList target)
    (htextNe : text ≠ []) (htargetNe : target ≠ []) :
    spanText link.written text = trim link.text ∧ spanText link.written target = trim link.target := by
  have hfirst : Tiles (byteLength ['[', '[']) link.text.toList text := htext.tiles
  have hoffset : byteLength (['[', '['] ++ link.text.toList ++ ['-', '>']) =
      2 + byteLength link.text.toList + 2 := by
    rw [byteLength_append, byteLength_append]
    rfl
  have hsecond : Tiles (byteLength (['[', '['] ++ link.text.toList ++ ['-', '>'])) link.target.toList
      target := hoffset ▸ htarget.tiles
  have hfirstPart : link.written.toList = ['[', '['] ++ link.text.toList ++
      (['-', '>'] ++ (link.target.toList ++ [']', ']'])) := by
    simp [toList_written]
  have hsecondPart : link.written.toList =
      ['[', '['] ++ link.text.toList ++ ['-', '>'] ++ link.target.toList ++ [']', ']'] := by
    simp [toList_written]
  have hfirstSpan := (hfirst.spanText hfirstPart htextNe).1
  have hsecondSpan := (hsecond.spanText hsecondPart htargetNe).1
  rw [String.ofList_toList] at hfirstSpan hsecondSpan
  exact ⟨hfirstSpan, hsecondSpan⟩

/-- A link is the tree of its written form if its sides, where they are written, lex into segments, the
second of them without an arrow. -/
theorem parse_written_of_lexes (catalog : Catalog) (htext : Lexes 2 link.text.toList text)
    (htarget : Lexes (2 + byteLength link.text.toList + 2) link.target.toList target)
    (htextPlain : ∀ token ∈ text, token.kind.isBracket = false)
    (htargetPlain : ∀ token ∈ target, token.kind.isBracket = false)
    (hinside : ∀ {arrow : Token}, arrow.kind = .linkArrow → Derives .segments (text ++ arrow :: target))
    (hlast : ∀ token ∈ target, token.kind ≠ .linkArrow)
    (htextQuote : '"' ∉ link.text.toList) (htargetQuote : '"' ∉ link.target.toList)
    (htextTrim : trim link.text = link.text) (htargetTrim : trim link.target = link.target) :
    parse catalog link.written = .ok ⟨[.link link]⟩ := by
  rcases scan_written htext htarget htextPlain htargetPlain htextQuote htargetQuote with
    ⟨opening, arrow, closing, hopening, harrow, hclosing, hscan⟩
  have hbrackets : scan link.written = opening :: ((text ++ arrow :: target) ++ [closing]) := by
    rw [hscan, List.append_assoc, List.cons_append]
  have hsegments := hinside harrow
  rcases parse_link hbrackets hopening hsegments hclosing with ⟨htokens, hparse⟩
  have hpart : text ++ arrow :: target <:+: tokensOf link.written :=
    ⟨[opening], [closing], by rw [htokens]; simp⟩
  rcases hsegments.segments_arrow harrow with ⟨htextNe, htargetNe⟩
  rcases spanText_written htext htarget htextNe htargetNe with ⟨htextSpan, htargetSpan⟩
  rw [hparse, Link.ofTokens_of_arrow hsegments hpart harrow hlast, htextSpan, htargetSpan, htextTrim,
    htargetTrim]

end Written

/-- A link stands for a phrase between the brackets of a link. -/
theorem Becomes.exists_link {source : String} {catalog : Catalog} {phrase : Phrase} {node : Node}
    {link : Link} (h : Becomes source catalog phrase node) (hnode : node = .link link) :
    ∃ opening inside closing, phrase = .link opening inside closing ∧ link = .ofTokens source inside := by
  cases h with
  | prose | value | hook => cases hnode
  | @call text pattern => cases pattern <;> cases hnode
  | @hooked text pattern => cases pattern <;> cases hnode
  | @link opening closing inside =>
      cases hnode
      exact ⟨opening, inside, closing, rfl, rfl⟩

/-- A link of a tree is made of tokens of the passage. -/
theorem Siblings.exists_link {catalog : Catalog} {source : String} {program : Program}
    (hparse : parse catalog source = .ok program) {level : Level} {nodes : List Node}
    (h : Siblings program level nodes) {link : Link} (hmem : .link link ∈ nodes) :
    ∃ inside, Derives .segments inside ∧ inside <:+: tokensOf source ∧
      link = .ofTokens source inside := by
  rcases h.origin hparse with ⟨phrases, hlevel, hnodes⟩
  rcases exists_becomes_of_mem (hlevel.becomes hnodes) hmem with ⟨phrase, hphrase, hbecomes⟩
  have hfits := hlevel.fits_of_mem hphrase
  have hpart := hlevel.part_of_mem hphrase
  rcases hbecomes.exists_link rfl with ⟨opening, inside, closing, rfl, rfl⟩
  exact ⟨inside, hfits.2.1, inside_part_link.trans hpart, rfl⟩

/-- A link without quotes, at whatever depth of an accepted passage, is read back from its written form:
that form is accepted with the same catalog, and its tree is the link. -/
theorem parse_written {catalog : Catalog} {source : String} {program : Program}
    (hparse : parse catalog source = .ok program) {level : Level} {nodes : List Node}
    (hsiblings : Siblings program level nodes) {link : Link} (hmem : .link link ∈ nodes)
    (htextQuote : '"' ∉ link.text.toList) (htargetQuote : '"' ∉ link.target.toList) :
    parse catalog link.written = .ok ⟨[.link link]⟩ := by
  rcases hsiblings.exists_link hparse hmem with ⟨inside, hinside, hpart, rfl⟩
  rcases Link.exists_sides hinside hpart with
    ⟨text, arrow, target, hsides, harrow, hlast, htextPart, htargetPart, hlink⟩
  rw [hlink] at htextQuote htargetQuote ⊢
  rcases hsides.segments_arrow harrow with ⟨htextNe, htargetNe⟩
  have hplain := hsides.not_isBracket rfl
  have htextPlain : ∀ token ∈ text, token.kind.isBracket = false :=
    fun token hmem => hplain token (by simp [hmem])
  have htargetPlain : ∀ token ∈ target, token.kind.isBracket = false :=
    fun token hmem => hplain token (by simp [hmem])
  rcases lexes_side htextPart htextNe htextPlain 2 with ⟨first, hfirst, hfirstKinds⟩
  rcases lexes_side htargetPart htargetNe htargetPlain (2 + byteLength (spanText source text).toList + 2)
    with ⟨second, hsecond, hsecondKinds⟩
  have hwritten : ∀ {sign : Token}, sign.kind = .linkArrow → Derives .segments (first ++ sign :: second) := by
    intro sign hsign
    apply hsides.segments_of_kinds
    simp [hfirstKinds, hsecondKinds, hsign, harrow]
  exact parse_written_of_lexes catalog hfirst hsecond
    (forall_of_kinds (·.isBracket = false) hfirstKinds htextPlain)
    (forall_of_kinds (·.isBracket = false) hsecondKinds htargetPlain) hwritten
    (forall_of_kinds (· ≠ .linkArrow) hsecondKinds hlast) htextQuote htargetQuote
    (tight_spanText htextPart htextNe).2 (tight_spanText htargetPart htargetNe).2

/-- Whether a node is a given link. -/
def Node.isLink (link : Link) : Node → Bool
  | .link other => other == link
  | _ => false

theorem eq_link_of_isLink {link : Link} {node : Node} (h : node.isLink link = true) :
    node = .link link := by
  cases node with
  | link other => rw [eq_of_beq h]
  | _ => cases h

/-- A link inside a hook, with an arrow in its text besides the last one, the head of a call, an operator
that comes to stand right in front of the written arrow, and a name that could go on as the head of a
call. -/
theorem parse_written_inside :
    ∃ program children,
      parse .builtin "(box:)[[[a - -> (x: 1 ) b < -> (up- ]]]" = .ok program ∧
        Siblings program .hook children ∧ .link ⟨"a - -> (x: 1 ) b <", "(up-"⟩ ∈ children ∧
        parse .builtin "[[a - -> (x: 1 ) b <->(up-]]" =
          .ok ⟨[.link ⟨"a - -> (x: 1 ) b <", "(up-"⟩]⟩ := by
  have hany : (parse .builtin "(box:)[[[a - -> (x: 1 ) b < -> (up- ]]]").toOption.any
      (fun program => program.nodes.any fun outer => outer.hook?.any fun children =>
        children.any (Node.isLink ⟨"a - -> (x: 1 ) b <", "(up-"⟩)) = true := by
    decide +kernel
  cases hparse : parse .builtin "(box:)[[[a - -> (x: 1 ) b < -> (up- ]]]" with
  | error e =>
      rw [hparse] at hany
      cases hany
  | ok program =>
      rw [hparse] at hany
      rcases List.any_eq_true.1 hany with ⟨outer, houter, hhook⟩
      rcases (Option.any_eq_true_iff_get _ _).1 hhook with ⟨hsome, hinner⟩
      rcases List.any_eq_true.1 hinner with ⟨node, hmem, hnode⟩
      rw [eq_link_of_isLink hnode] at hmem
      have hsiblings : Siblings program .hook (outer.hook?.get hsome) :=
        .inside .top houter (Option.some_get hsome).symm
      have hform : Link.written ⟨"a - -> (x: 1 ) b <", "(up-"⟩ = "[[a - -> (x: 1 ) b <->(up-]]" := by
        decide +kernel
      have halone := parse_written hparse hsiblings hmem (by decide) (by decide)
      rw [hform] at halone
      exact ⟨program, _, rfl, hsiblings, hmem, halone⟩

end PassageMarkup
