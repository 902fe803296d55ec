/-
Module: PassageMarkup.Proofs.Respacing
Layer: Proofs
Purpose: Passages with other blanks between their tokens. The gaps of a passage may be replaced by other
  blanks, as long as an inner gap stays empty where it was and nonempty where it was not. The new passage
  has the same tokens: what follows a token in the two passages is alike, and the leading token does not
  depend on more than that, provided that no quote is left open. Resolving bracket runs asks only which
  tokens touch, so the resolved tokens are the same too, and some of them in a row span texts that are
  alike.
Imports: Proofs.BracketRuns, Proofs.Spacing, Proofs.Spans
Main exports: Respaces, Respaced, Respaced.alike, Lexes.respaced, Respaced.resolve, Respaced.span
-/
import PassageMarkup.Proofs.BracketRuns
import PassageMarkup.Proofs.Spacing
import PassageMarkup.Proofs.Spans

namespace PassageMarkup

open Text Recognise

/-- Gaps that may stand in the place of others: as many, all of them blank, and empty in the same places,
the first and the last one apart. -/
structure Respaces (gaps others : List String) : Prop where
  length_eq : others.length = gaps.length
  blank : ∀ gap ∈ others, allBlank gap = true
  inner : ∀ i, 0 < i → i + 1 < gaps.length → (others[i]? = some "" ↔ gaps[i]? = some "")

instance (gaps others : List String) : Decidable (Respaces gaps others) :=
  decidable_of_iff (others.length = gaps.length ∧ (∀ gap ∈ others, allBlank gap = true) ∧
      ∀ i < gaps.length, 0 < i → i + 1 < gaps.length → (others[i]? = some "" ↔ gaps[i]? = some ""))
    ⟨fun ⟨hlength, hblank, hinner⟩ => ⟨hlength, hblank, fun i hpos hlt => hinner i (by omega) hpos hlt⟩,
      fun h => ⟨h.length_eq, h.blank, fun i _ hpos hlt => h.inner i hpos hlt⟩⟩

theorem Respaces.tail {gap other : String} {gaps others : List String}
    (h : Respaces (gap :: gaps) (other :: others)) : Respaces gaps others where
  length_eq := by simpa using h.length_eq
  blank next hmem := h.blank next (List.mem_cons_of_mem _ hmem)
  inner i hpos hlt := by simpa using h.inner (i + 1) (by omega) (by simpa using hlt)

/-! ### Two passages with the same tokens -/

/-- The kind and the text of a token. -/
def Token.spelling (token : Token) : Kind × String :=
  (token.kind, token.text)

/-- Two texts, from the bytes `offset` and `offset'` on, that have the same tokens in order, with gaps
between them that are empty in the same places. Behind the last token there may be any blanks. -/
inductive Respaced : Nat → List Char → List Token → Nat → List Char → List Token → Prop where
  | done {offset offset' : Nat} {gap gap' : List Char} (hgap : ∀ c ∈ gap, isBlank c = true)
      (hgap' : ∀ c ∈ gap', isBlank c = true) : Respaced offset gap [] offset' gap' []
  | token {offset offset' : Nat} {gap gap' text rest rest' : List Char} {kind : Kind}
      {tokens tokens' : List Token} (hgap : ∀ c ∈ gap, isBlank c = true)
      (hgap' : ∀ c ∈ gap', isBlank c = true) (hempty : gap = [] ↔ gap' = []) (hsolid : SolidText text)
      (hrest : Respaced (offset + byteLength gap + byteLength text) rest tokens
        (offset' + byteLength gap' + byteLength text) rest' tokens') :
      Respaced offset (gap ++ (text ++ rest))
        (⟨kind, String.ofList text, offset + byteLength gap,
          offset + byteLength gap + byteLength text⟩ :: tokens)
        offset' (gap' ++ (text ++ rest'))
        (⟨kind, String.ofList text, offset' + byteLength gap',
          offset' + byteLength gap' + byteLength text⟩ :: tokens')

section

variable {offset offset' : Nat} {cs cs' : List Char} {tokens tokens' : List Token}

/-- Gaps that are both empty or both not, in front of texts that are alike. -/
theorem Alike.afterGap {gap gap' : List Char} (hgap : ∀ c ∈ gap, isBlank c = true)
    (hgap' : ∀ c ∈ gap', isBlank c = true) (hempty : gap = [] ↔ gap' = []) (h : Alike cs cs') :
    Alike (gap ++ cs) (gap' ++ cs') := by
  by_cases hnil : gap = []
  · rw [hnil, hempty.1 hnil]
    exact h
  · exact .gap hgap hnil hgap' (fun hnil' => hnil (hempty.2 hnil')) h

theorem Respaced.alike (h : Respaced offset cs tokens offset' cs' tokens') : Alike cs cs' := by
  induction h with
  | done hgap hgap' => exact .ends hgap hgap'
  | token hgap hgap' hempty _ _ ih => exact .afterGap hgap hgap' hempty (ih.append _)

/-- The tokens of both texts have the same kinds and texts. -/
theorem Respaced.spelling (h : Respaced offset cs tokens offset' cs' tokens') :
    tokens'.map Token.spelling = tokens.map Token.spelling := by
  induction h with
  | done => rfl
  | token _ _ _ _ _ ih => rw [List.map_cons, List.map_cons, ih]; rfl

/-- A token in front, in both texts with no gap. -/
theorem Respaced.solid {text : List Char} {kind : Kind} (hsolid : SolidText text)
    (h : Respaced (offset + byteLength text) cs tokens (offset' + byteLength text) cs' tokens') :
    Respaced offset (text ++ cs)
      (⟨kind, String.ofList text, offset, offset + byteLength text⟩ :: tokens)
      offset' (text ++ cs')
      (⟨kind, String.ofList text, offset', offset' + byteLength text⟩ :: tokens') := by
  rw [← List.nil_append (text ++ cs), ← List.nil_append (text ++ cs')]
  exact .token (by simp) (by simp) Iff.rfl hsolid h

/-- More blanks in front, in both texts or in neither; if there are no tokens they may be any. -/
theorem Respaced.afterGap {gap gap' : List Char} (hgap : ∀ c ∈ gap, isBlank c = true)
    (hgap' : ∀ c ∈ gap', isBlank c = true) (hempty : tokens ≠ [] → (gap = [] ↔ gap' = []))
    (h : Respaced (offset + byteLength gap) cs tokens (offset' + byteLength gap') cs' tokens') :
    Respaced offset (gap ++ cs) tokens offset' (gap' ++ cs') tokens' := by
  have hboth : ∀ {first second : List Char}, (∀ c ∈ first, isBlank c = true) →
      (∀ c ∈ second, isBlank c = true) → ∀ c ∈ first ++ second, isBlank c = true := by
    intro first second hfirst hsecond c hmem
    exact (List.mem_append.1 hmem).elim (hfirst c) (hsecond c)
  cases h with
  | done hmore hmore' => exact .done (hboth hgap hmore) (hboth hgap' hmore')
  | @token _ _ more more' text rest rest' kind _ _ hmore hmore' hmoreEmpty hsolid hrest =>
      have hoffset : offset + byteLength gap + byteLength more =
          offset + byteLength (gap ++ more) := by rw [byteLength_append, Nat.add_assoc]
      have hoffset' : offset' + byteLength gap' + byteLength more' =
          offset' + byteLength (gap' ++ more') := by rw [byteLength_append, Nat.add_assoc]
      rw [hoffset, hoffset'] at hrest ⊢
      rw [← List.append_assoc gap, ← List.append_assoc gap']
      refine .token (hboth hgap hmore) (hboth hgap' hmore') ?_ hsolid hrest
      rw [List.append_eq_nil_iff, List.append_eq_nil_iff, hempty (by simp), hmoreEmpty]

end

/-! ### Scanning the new passage -/

/-- The first token of a text, with the blanks in front of it. -/
theorem Lexes.uncons {offset : Nat} {cs : List Char} {token : Token} {tokens : List Token}
    (h : Lexes offset cs (token :: tokens)) : ∃ kind gap text rest, cs = gap ++ (text ++ rest) ∧
      (∀ c ∈ gap, isBlank c = true) ∧ leading? (text ++ rest) = some (kind, text.length) ∧
      kind ≠ .whitespace ∧
      token = ⟨kind, String.ofList text, offset + byteLength gap,
        offset + byteLength gap + byteLength text⟩ ∧
      Lexes (offset + byteLength gap + byteLength text) rest tokens := by
  generalize hall : token :: tokens = all at h
  induction h with
  | nil => cases hall
  | @blank offset gap rest _ hleading _ ih =>
      rcases ih hall with ⟨kind, more, text, rest, rfl, hmore, hfirst, hkind, htoken, hrest⟩
      have hoffset : offset + byteLength gap + byteLength more =
          offset + byteLength (gap ++ more) := by rw [byteLength_append, Nat.add_assoc]
      rw [hoffset] at htoken hrest
      refine ⟨kind, gap ++ more, text, rest, by simp, ?_, hfirst, hkind, htoken, hrest⟩
      intro c hmem
      exact (List.mem_append.1 hmem).elim (isBlank_of_leading hleading c) (hmore c)
  | @token offset kind text rest _ hleading hkind hrest _ =>
      cases hall
      exact ⟨kind, [], text, rest, rfl, by simp, hleading, hkind, rfl, hrest⟩

theorem toList_interleave (gap : String) (gaps : List String) (token : Token) (tokens : List Token) :
    (interleave (gap :: gaps) (token :: tokens)).toList =
      gap.toList ++ (token.text.toList ++ (interleave gaps tokens).toList) := by
  rw [interleave, String.toList_append, String.toList_append, List.append_assoc]

/-- The tokens of a text stay the same when its gaps are replaced. Here `gap` and `gap'` are the first
gaps, which may be any, and `core` and `core'` are what follows them. -/
theorem Lexes.respaced {source : String} : ∀ {tokens : List Token} {offset : Nat}
    {cs before : List Char}, Lexes offset cs tokens → source.toList = before ++ cs →
    byteLength before = offset →
    (∀ token ∈ tokens, token.kind ≠ .string → '"' ∉ token.text.toList) →
    ∀ {gaps : List String}, Respaces (gapsFrom source offset tokens) gaps → ∀ offset',
      ∃ gap gap' core core' tokens', cs = gap ++ core ∧ (interleave gaps tokens).toList = gap' ++ core' ∧
        (∀ c ∈ gap, isBlank c = true) ∧ (∀ c ∈ gap', isBlank c = true) ∧
        (gapsFrom source offset tokens)[0]? = some (String.ofList gap) ∧
        gaps[0]? = some (String.ofList gap') ∧
        Lexes offset' (interleave gaps tokens).toList tokens' ∧
        Respaced (offset + byteLength gap) core tokens (offset' + byteLength gap') core' tokens'
  | [], offset, cs, before, hlexes, hsource, hbefore, _, gaps, hgaps, offset' => by
      have hcs := hlexes.tiles.blank_of_nil
      have hslice : slice source offset source.utf8ByteSize = String.ofList cs := by
        have hparts : source.toList = before ++ cs ++ [] := by rw [hsource, List.append_nil]
        rw [utf8ByteSize_eq, hsource, byteLength_append, ← hbefore]
        exact slice_eq hparts
      rw [gapsFrom, hslice] at hgaps ⊢
      rcases List.length_eq_one_iff.1 hgaps.length_eq with ⟨gap', rfl⟩
      have hgap' : ∀ c ∈ gap'.toList, isBlank c = true :=
        List.all_eq_true.1 (hgaps.blank gap' List.mem_cons_self)
      have hjoin : interleave [gap'] [] = gap' := by simp [interleave, String.join]
      rw [hjoin]
      refine ⟨cs, gap'.toList, [], [], [], by simp, by simp, hcs, hgap', rfl, by simp, ?_,
        .done (by simp) (by simp)⟩
      have hblanks : Lexes offset' (gap'.toList ++ []) [] := .afterBlanks hgap' (by simp) .nil
      rwa [List.append_nil] at hblanks
  | first :: tokens, offset, cs, before, hlexes, hsource, hbefore, hquotes, gaps, hgaps, offset' => by
      rcases hlexes.uncons with ⟨kind, gap, text, rest, rfl, hgap, hleading, hkind, rfl, hrest⟩
      cases gaps with
      | nil => cases hgaps.length_eq
      | cons gap' gaps =>
          have hsolid := solidText_of_leading hleading hkind
          have hslice : slice source offset (offset + byteLength gap) = String.ofList gap := by
            rw [← hbefore]
            exact slice_eq (by rw [hsource, List.append_assoc])
          have hgap' : ∀ c ∈ gap'.toList, isBlank c = true :=
            List.all_eq_true.1 (hgaps.blank gap' List.mem_cons_self)
          rw [gapsFrom, hslice] at hgaps ⊢
          have hbefore' : byteLength (before ++ gap ++ text) =
              offset + byteLength gap + byteLength text := by
            rw [byteLength_append, byteLength_append, hbefore]
          rcases hrest.respaced (by simp [hsource]) hbefore'
            (fun other hmem => hquotes other (List.mem_cons_of_mem _ hmem)) hgaps.tail
            (offset' + byteLength gap'.toList + byteLength text)
            with ⟨space, space', core, core', tokens', rfl, hcore', hspace, hspace', hhead, hhead',
              hlexes', hrespaced⟩
          -- a gap that is not the last one is empty in both texts or in neither
          have hempty : tokens ≠ [] → (space = [] ↔ space' = []) := by
            intro hne
            have hlength : 1 + 1 < (String.ofList gap :: gapsFrom source
                (offset + byteLength gap + byteLength text) tokens).length := by
              have hpos := List.length_pos_iff.2 hne
              rw [List.length_cons, length_gapsFrom]
              omega
            have hinner := hgaps.inner 1 (by omega) hlength
            rw [List.getElem?_cons_succ, List.getElem?_cons_succ, hhead, hhead'] at hinner
            simpa using hinner.symm
          have hbehind := Respaced.afterGap hspace hspace' hempty hrespaced
          have hquote : kind ≠ .string → '"' ∉ text := by
            simpa using hquotes _ List.mem_cons_self
          have hleading' := leading?_of_alike hbehind.alike hkind hquote hleading
          rw [toList_interleave, String.toList_ofList, hcore']
          rw [hcore'] at hlexes'
          refine ⟨gap, gap'.toList, text ++ (space ++ core), text ++ (space' ++ core'), _, rfl, rfl,
            hgap, hgap', rfl, by simp, ?_, .solid hsolid hbehind⟩
          apply Lexes.afterBlanks hgap'
          · rcases hsolid.1 with ⟨c, hc, hblank⟩
            simpa [List.head?_append, hc] using hblank
          · exact .token hleading' hkind hlexes'

/-! ### Resolving bracket runs -/

/-- Any two texts that have certain tokens in common also have certain others in common. -/
def Retiles (tokens tokens' others others' : List Token) : Prop :=
  ∀ {offset cs offset' cs'}, Respaced offset cs tokens offset' cs' tokens' →
    Respaced offset cs others offset' cs' others'

section Resolving

variable {offset offset' : Nat} {cs cs' : List Char} {token token' next next' : Token}
  {rest rest' other other' tokens' : List Token}

/-- The first tokens of both texts are of one kind, and what follows them may be retiled. -/
theorem Respaced.uncons (h : Respaced offset cs (token :: rest) offset' cs' tokens') :
    ∃ token' rest', tokens' = token' :: rest' ∧ token'.kind = token.kind ∧
      ∀ {other other'}, Retiles rest rest' other other' →
        Respaced offset cs (token :: other) offset' cs' (token' :: other') := by
  cases h with
  | token hgap hgap' hempty hsolid hrest =>
      exact ⟨_, _, rfl, rfl, fun hretiles => .token hgap hgap' hempty hsolid (hretiles hrest)⟩

/-- The first two tokens of both texts are of the same kinds, and they touch in both or in neither. -/
theorem Respaced.two (h : Respaced offset cs (token :: next :: rest) offset' cs' tokens') :
    ∃ token' next' rest', tokens' = token' :: next' :: rest' ∧ token'.kind = token.kind ∧
      next'.kind = next.kind ∧ next'.touches token' = next.touches token := by
  cases h with
  | token _ _ _ _ hrest =>
      cases hrest with
      | @token _ _ gap gap' _ _ _ _ _ _ _ _ hempty _ _ =>
          have hzero : ∀ space : List Char, byteLength space = 0 ↔ space = [] :=
            fun space => ⟨eq_nil_of_byteLength, fun hnil => hnil ▸ rfl⟩
          refine ⟨_, _, _, rfl, rfl, rfl, ?_⟩
          rw [Token.touches, Token.touches, Bool.eq_iff_iff]
          simp [hzero, hempty]

/-- A closing run of two brackets is split in both texts. -/
theorem Respaced.splitClose (h : Respaced offset cs (token :: rest) offset' cs' (token' :: rest'))
    (htext : token.text = "]]") (hrest : Retiles rest rest' other other') :
    Respaced offset cs
      (⟨.hookClose, "]", token.start, token.start + 1⟩ ::
        ⟨.hookClose, "]", token.start + 1, token.stop⟩ :: other)
      offset' cs'
      (⟨.hookClose, "]", token'.start, token'.start + 1⟩ ::
        ⟨.hookClose, "]", token'.start + 1, token'.stop⟩ :: other') := by
  cases h with
  | @token _ _ gap gap' text _ _ _ _ _ hgap hgap' hempty _ htail =>
      have hchars : text = [']', ']'] := chars_of_text rfl htext
      subst hchars
      have hsolid : SolidText [']'] := solidText_bracket (by decide)
      exact .token hgap hgap' hempty hsolid (.solid hsolid (hrest htail))

/-- A link bracket and a hook bracket that touch are swapped in both texts. -/
theorem Respaced.swapOpen
    (h : Respaced offset cs (token :: next :: rest) offset' cs' (token' :: next' :: rest'))
    (htext : token.text = "[[") (hnext : next.text = "[") (htouches : next.touches token = true)
    (hrest : Retiles rest rest' other other') :
    Respaced offset cs
      (⟨.hookOpen, "[", token.start, token.start + 1⟩ ::
        ⟨.linkOpen, "[[", token.start + 1, next.stop⟩ :: other)
      offset' cs'
      (⟨.hookOpen, "[", token'.start, token'.start + 1⟩ ::
        ⟨.linkOpen, "[[", token'.start + 1, next'.stop⟩ :: other') := by
  cases h with
  | @token _ _ gap gap' text _ _ _ _ _ hgap hgap' hempty _ htail =>
      cases htail with
      | @token _ _ space space' text' _ _ _ _ _ _ _ hspace _ hlast =>
          have hchars : text = ['[', '['] := chars_of_text rfl htext
          have hchars' : text' = ['['] := chars_of_text rfl hnext
          subst hchars hchars'
          -- nothing stands between two tokens that touch
          have hnone : space = [] := by
            apply eq_nil_of_byteLength
            simpa [Token.touches] using htouches
          have hnone' : space' = [] := hspace.1 hnone
          subst hnone hnone'
          have hone : SolidText ['['] := solidText_bracket (by decide)
          have htwo : SolidText ['[', '['] := ⟨⟨'[', rfl, by decide⟩, '[', rfl, by decide⟩
          exact .token hgap hgap' hempty hone (.solid htwo (hrest hlast))

/-- A token that stays as it is, whatever token of its kind it is, stays in both texts. -/
theorem Respaced.keep {opened inside : List OpenBracket}
    (hresolve : ∀ other later, other.kind = token.kind →
      resolveFrom opened (other :: later) = other :: resolveFrom inside later)
    (hrest : ∀ tokens', Retiles rest tokens' (resolveFrom inside rest) (resolveFrom inside tokens'))
    (h : Respaced offset cs (token :: rest) offset' cs' tokens') :
    Respaced offset cs (token :: resolveFrom inside rest) offset' cs' (resolveFrom opened tokens') := by
  rcases h.uncons with ⟨token', rest', rfl, hkind, hretiles⟩
  rw [hresolve token' rest' hkind]
  exact hretiles (hrest rest')

end Resolving

/-- Resolving the bracket runs of both texts leaves them with the same tokens. -/
theorem Respaced.resolve {tokens : List Token} (hspelled : ∀ token ∈ tokens, BracketSpelled token)
    (opened : List OpenBracket) :
    ∀ tokens', Retiles tokens tokens' (resolveFrom opened tokens) (resolveFrom opened tokens') := by
  fun_induction resolveFrom opened tokens with
  | case1 =>
      intro tokens' offset cs offset' cs' h
      cases h with
      | done hgap hgap' => exact .done hgap hgap'
  | case2 opened token hkind =>
      intro tokens' offset cs offset' cs' h
      rcases h.uncons with ⟨token', rest', rfl, hkind', _⟩
      have hnone : rest' = [] := by simpa using congrArg List.length h.spelling
      subst hnone
      rwa [resolveFrom_linkOpen (hkind'.trans hkind) (by simp)]
  | case3 opened token hkind next later hsplit ih =>
      intro tokens' offset cs offset' cs' h
      have htoken := hspelled token (by simp)
      have hnext := hspelled next (by simp)
      have hlater := ih fun other hmem => hspelled other (by simp [hmem])
      rcases h.two with ⟨token', next', later', rfl, hkind', hnextKind, htouches⟩
      rw [resolveFrom_openTwo (hkind'.trans hkind) (hnextKind.trans hsplit.1) (htouches.trans hsplit.2)]
      exact h.swapOpen (htoken.linkOpen hkind) (hnext.hookOpen hsplit.1) hsplit.2 (hlater later')
  | case4 opened token hkind next later hsplit ih =>
      intro tokens' offset cs offset' cs' h
      have hlater := ih fun other hmem => hspelled other (List.mem_cons_of_mem _ hmem)
      rcases h.two with ⟨token', next', later', rfl, hkind', hnextKind, htouches⟩
      have hresolve : resolveFrom opened (token' :: next' :: later') =
          token' :: resolveFrom (.link :: opened) (next' :: later') := by
        apply resolveFrom_linkOpen (hkind'.trans hkind)
        intro _ hmem hhook htouch
        cases hmem
        refine hsplit ⟨hnextKind.symm.trans hhook, ?_⟩
        rw [← htouches]
        exact beq_iff_eq.2 htouch
      rw [hresolve]
      rcases h.uncons with ⟨_, _, hsame, _, hretiles⟩
      cases hsame
      exact hretiles (hlater _)
  | case8 token later hkind outer ih =>
      intro tokens' offset cs offset' cs' h
      rcases h.uncons with ⟨token', rest', rfl, hkind', _⟩
      have hresolve := resolveFrom.eq_def (.hook :: outer) (token' :: rest')
      simp only [hkind', hkind] at hresolve
      rw [hresolve]
      have hlater := ih fun other hmem => hspelled other (List.mem_cons_of_mem _ hmem)
      exact h.splitClose ((hspelled token List.mem_cons_self).linkClose hkind) (hlater rest')
  | case5 opened token later hkind ih | case6 opened token later hkind ih
    | case7 token later hkind outer ih | case9 token later hkind ih =>
      intro tokens' offset cs offset' cs' h
      refine h.keep ?_ (ih fun other hmem => hspelled other (List.mem_cons_of_mem _ hmem))
      intro other later hother
      rw [resolveFrom.eq_def]
      simp only [hother, hkind]
  | case10 opened token later hopenLink hopen hclose hcloseLink ih =>
      intro tokens' offset cs offset' cs' h
      refine h.keep ?_ (ih fun other hmem => hspelled other (List.mem_cons_of_mem _ hmem))
      intro other later hother
      apply resolveFrom_plain
      rw [hother]
      cases hkind : token.kind with
      | linkOpen => exact absurd hkind hopenLink
      | hookOpen => exact absurd hkind hopen
      | hookClose => exact absurd hkind hclose
      | linkClose => exact absurd hkind hcloseLink
      | _ => rfl

/-! ### Texts that tokens span -/

section Spans

variable {f : Token → Token} {offset offset' : Nat} {cs cs' : List Char} {tokens : List Token}

theorem Alike.refl (text : List Char) : Alike text text := by
  simpa using (Alike.ends (by simp) (by simp) : Alike [] []).append text

/-- Both texts are alike up to the end of a token. -/
theorem Respaced.upTo {tokens' : List Token} (h : Respaced offset cs tokens offset' cs' tokens') :
    tokens' = tokens.map f → ∀ before last behind, tokens = before ++ last :: behind →
      ∃ front back front' back', cs = front ++ back ∧ cs' = front' ++ back' ∧ Alike front front' ∧
        last.stop = offset + byteLength front ∧ (f last).stop = offset' + byteLength front' := by
  induction h with
  | done =>
      intro _ before last behind heq
      simp at heq
  | @token offset offset' gap gap' text rest rest' kind tokens tokens' hgap hgap' hempty _ _ ih =>
      intro hmap before last behind heq
      rcases List.cons.inj hmap with ⟨hfirst, hmap⟩
      cases before with
      | nil =>
          rcases List.cons.inj heq with ⟨rfl, rfl⟩
          refine ⟨gap ++ text, rest, gap' ++ text, rest', by simp, by simp,
            .afterGap hgap hgap' hempty (.refl text), ?_, ?_⟩
          · rw [byteLength_append, Nat.add_assoc]
          · rw [← hfirst, byteLength_append, Nat.add_assoc]
      | cons other before =>
          rcases List.cons.inj heq with ⟨_, htail⟩
          rcases ih hmap before last behind htail with
            ⟨front, back, front', back', rfl, rfl, halike, hend, hend'⟩
          refine ⟨gap ++ (text ++ front), back, gap' ++ (text ++ front'), back', by simp, by simp,
            .afterGap hgap hgap' hempty (halike.append text), ?_, ?_⟩
          · rw [hend, byteLength_append, byteLength_append]
            omega
          · rw [hend', byteLength_append, byteLength_append]
            omega

/-- Some tokens in a row span texts that are alike. -/
theorem Respaced.span {tokens' : List Token} (h : Respaced offset cs tokens offset' cs' tokens') :
    tokens' = tokens.map f → ∀ before part behind first last, tokens = before ++ (part ++ behind) →
      part.head? = some first → part.getLast? = some last →
      ∃ front middle back front' middle' back', cs = front ++ middle ++ back ∧
        cs' = front' ++ middle' ++ back' ∧ Alike middle middle' ∧
        first.start = offset + byteLength front ∧ last.stop = first.start + byteLength middle ∧
        (f first).start = offset' + byteLength front' ∧
        (f last).stop = (f first).start + byteLength middle' := by
  induction h with
  | done =>
      intro _ before part behind first last heq hfirst _
      have hpart : part = [] := (List.append_eq_nil_iff.1 (List.append_eq_nil_iff.1 heq.symm).2).1
      rw [hpart] at hfirst
      cases hfirst
  | @token offset offset' gap gap' text rest rest' kind tokens tokens' _ _ _ _ hrest ih =>
      intro hmap before part behind first last heq hfirst hlast
      rcases List.cons.inj hmap with ⟨hmoved, hmap⟩
      cases before with
      | cons other before =>
          rcases List.cons.inj heq with ⟨_, htail⟩
          rcases ih hmap before part behind first last htail hfirst hlast with
            ⟨front, middle, back, front', middle', back', rfl, rfl, halike, hbegin, hend, hbegin', hend'⟩
          refine ⟨gap ++ text ++ front, middle, back, gap' ++ text ++ front', middle', back', by simp,
            by simp, halike, ?_, hend, ?_, hend'⟩
          · rw [hbegin, byteLength_append, byteLength_append]
            omega
          · rw [hbegin', byteLength_append, byteLength_append]
            omega
      | nil =>
          cases part with
          | nil => cases hfirst
          | cons other part =>
              rcases List.cons.inj heq with ⟨hother, htail⟩
              rw [List.head?_cons, Option.some.injEq] at hfirst
              subst hfirst
              rw [hother] at hmoved
              have hstart : other.start = offset + byteLength gap := by rw [← hother]
              have hstop : other.stop = other.start + byteLength text := by rw [← hother]
              have hstart' : (f other).start = offset' + byteLength gap' := by rw [← hmoved]
              have hstop' : (f other).stop = (f other).start + byteLength text := by rw [← hmoved]
              by_cases hpart : part = []
              · subst hpart
                rw [List.getLast?_singleton, Option.some.injEq] at hlast
                subst hlast
                exact ⟨gap, text, rest, gap', text, rest', by simp, by simp, .refl text, hstart, hstop,
                  hstart', hstop'⟩
              · have hend : part = part.dropLast ++ [last] := by
                  rw [List.getLast?_cons, List.getLast?_eq_some_getLast hpart, Option.getD_some,
                    Option.some.injEq] at hlast
                  rw [← hlast, List.dropLast_concat_getLast hpart]
                have hsplit : tokens = part.dropLast ++ last :: behind := by
                  rw [htail, List.append_eq, hend]
                  simp
                rcases hrest.upTo hmap _ _ _ hsplit with
                  ⟨front, back, front', back', rfl, rfl, halike, hupTo, hupTo'⟩
                refine ⟨gap, text ++ front, back, gap', text ++ front', back', by simp, by simp,
                  halike.append text, hstart, ?_, hstart', ?_⟩
                · rw [hupTo, hstart, byteLength_append, Nat.add_assoc]
                · rw [hupTo', hstart', byteLength_append, Nat.add_assoc]

end Spans

end PassageMarkup
