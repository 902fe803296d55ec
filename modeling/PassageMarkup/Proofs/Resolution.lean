/-
Module: PassageMarkup.Proofs.Resolution
Layer: Proofs
Purpose: What resolving bracket runs does. Token by token it keeps what is there, divides three opening
  brackets anew or splits two closing ones; every fact about resolved tokens follows from these steps.
  Here: resolving moves no text. A run is split differently, but the brackets keep covering the same bytes,
  so the resolved tokens of a passage tile it just as the scanned ones do, and whatever is no bracket stays
  as it was scanned. What the split relies on is that scanned brackets are spelled as their kind says.
Imports: Proofs.Lexing
Main exports: Lexes.exists_leading, leading?_of_mem_scan, BracketSpelled, Kind.turn, LinkThenHook, Resolved,
  resolved_resolveFrom, Resolved.filter_plain, Resolved.infix_of_plain, Resolved.spelled, Resolved.tiles,
  tiles_tokensOf
-/
import PassageMarkup.Proofs.Lexing

namespace PassageMarkup

open Text Recognise

/-- Every token of a text is the leading token of its own characters and what follows them. -/
theorem Lexes.exists_leading {offset : Nat} {cs : List Char} {tokens : List Token}
    (h : Lexes offset cs tokens) : ∀ token ∈ tokens, ∃ rest,
      leading? (token.text.toList ++ rest) = some (token.kind, token.text.toList.length) := by
  induction h with
  | nil => simp
  | blank _ _ ih => exact ih
  | @token offset kind text rest tokens hleading _ _ ih =>
      intro token hmem
      rcases List.mem_cons.1 hmem with rfl | hmem
      · refine ⟨rest, ?_⟩
        rw [String.toList_ofList]
        exact hleading
      · exact ih token hmem

/-- A token of a passage is one by itself. -/
theorem leading?_of_mem_scan {source : String} {token : Token} (h : token ∈ scan source) :
    leading? token.text.toList = some (token.kind, token.text.toList.length) := by
  rcases (lexes_scan source).exists_leading token h with ⟨rest, hleading⟩
  have hclean := token.kind.stable.clean (recognise_of_leading hleading)
  rw [List.take_left, List.drop_left] at hclean
  exact leading?_cut hclean hleading (Nat.le_refl _)

/-- A token that is spelled as its kind says, if it is a bracket. -/
structure BracketSpelled (token : Token) : Prop where
  linkOpen : token.kind = .linkOpen → token.text = "[["
  linkClose : token.kind = .linkClose → token.text = "]]"
  hookOpen : token.kind = .hookOpen → token.text = "["
  hookClose : token.kind = .hookClose → token.text = "]"

/-- A leading token of a kind with a fixed spelling has that spelling. -/
theorem text_of_exactly {kind : Kind} {spelling : List Char} {text rest : List Char}
    (hkind : kind.recognise = exactly spelling)
    (h : leading? (text ++ rest) = some (kind, text.length)) : text = spelling := by
  have hread := recognise_of_leading h
  rw [hkind] at hread
  obtain ⟨hpre, hlength⟩ := exactly_eq_some.1 hread
  have htake := take_of_prefix_self hpre
  rw [hlength, List.take_left] at htake
  exact htake

theorem bracketSpelled_scan (source : String) : ∀ token ∈ scan source, BracketSpelled token := by
  intro token hmem
  obtain ⟨rest, hleading⟩ := (lexes_scan source).exists_leading token hmem
  have hspelled : ∀ {kind spelling}, kind.recognise = exactly spelling → token.kind = kind →
      token.text = String.ofList spelling := by
    intro kind spelling hrecognise hkind
    rw [hkind] at hleading
    rw [← text_of_exactly hrecognise hleading, String.ofList_toList]
  exact ⟨hspelled rfl, hspelled rfl, hspelled rfl, hspelled rfl⟩

/-! ### The steps of resolving -/

/-- The open brackets, innermost first, after the innermost link is closed, if a link is innermost. -/
def closeLink : List OpenBracket → List OpenBracket
  | .link :: outer => outer
  | opened => opened

/-- The open brackets, innermost first, behind a token of some kind: an opening bracket is put on top, a
closing one takes its like off the top, and nothing else changes them. -/
def Kind.turn (opened : List OpenBracket) : Kind → List OpenBracket
  | .hookOpen => .hook :: opened
  | .linkOpen => .link :: opened
  | .hookClose => closeHook opened
  | .linkClose => closeLink opened
  | _ => opened

/-- A link bracket with a hook bracket directly behind it: three opening brackets in a row. -/
def LinkThenHook (first second : Token) : Prop :=
  first.kind = .linkOpen ∧ second.kind = .hookOpen ∧ second.start = first.stop

/-- What tokens in front of which some brackets are open resolve into. A token is kept, an opening run of
three brackets is divided anew, or a closing run of two is split. -/
inductive Resolved : List OpenBracket → List Token → List Token → Prop where
  | nil {opened : List OpenBracket} : Resolved opened [] []
  | keep {opened : List OpenBracket} {token : Token} {rest resolved : List Token}
      (hopen : ∀ next ∈ rest.head?, ¬ LinkThenHook token next)
      (hclose : token.kind = .linkClose → opened.head? ≠ some .hook)
      (hrest : Resolved (token.kind.turn opened) rest resolved) :
      Resolved opened (token :: rest) (token :: resolved)
  | swap {opened : List OpenBracket} {token next : Token} {rest resolved : List Token}
      (hopen : LinkThenHook token next) (hrest : Resolved (.link :: .hook :: opened) rest resolved) :
      Resolved opened (token :: next :: rest)
        (⟨.hookOpen, "[", token.start, token.start + 1⟩ ::
          ⟨.linkOpen, "[[", token.start + 1, next.stop⟩ :: resolved)
  | split {outer : List OpenBracket} {token : Token} {rest resolved : List Token}
      (hclose : token.kind = .linkClose) (hrest : Resolved (closeHook outer) rest resolved) :
      Resolved (.hook :: outer) (token :: rest)
        (⟨.hookClose, "]", token.start, token.start + 1⟩ ::
          ⟨.hookClose, "]", token.start + 1, token.stop⟩ :: resolved)

/-- A token that opens no link is kept, whatever follows it. -/
theorem Resolved.keepOther {opened next : List OpenBracket} {token : Token} {rest resolved : List Token}
    (hopen : token.kind ≠ .linkOpen) (hclose : token.kind = .linkClose → opened.head? ≠ some .hook)
    (hturn : token.kind.turn opened = next) (hrest : Resolved next rest resolved) :
    Resolved opened (token :: rest) (token :: resolved) :=
  .keep (fun _ _ hrun => hopen hrun.1) hclose (hturn ▸ hrest)

/-- Resolving takes these steps and no others. -/
theorem resolved_resolveFrom (opened : List OpenBracket) (tokens : List Token) :
    Resolved opened tokens (resolveFrom opened tokens) := by
  fun_induction resolveFrom opened tokens with
  | case1 => exact .nil
  | case2 opened token hkind => exact .keep (by simp) (by simp [hkind]) .nil
  | case3 opened token hkind next later hsplit ih =>
      exact .swap ⟨hkind, hsplit.1, by simpa [Token.touches] using hsplit.2⟩ ih
  | case4 opened token hkind next later hsplit ih =>
      refine .keep ?_ (by simp [hkind]) (hkind ▸ ih)
      intro other hother hrun
      obtain rfl := Option.some.inj hother
      exact hsplit ⟨hrun.2.1, by simpa [Token.touches] using hrun.2.2⟩
  | case5 opened token rest hkind ih | case6 opened token rest hkind ih =>
      exact .keepOther (by simp [hkind]) (by simp [hkind]) (by rw [hkind]; rfl) ih
  | case7 token rest hkind outer ih | case9 token rest hkind ih =>
      exact .keepOther (by simp [hkind]) (by simp) (by rw [hkind]; rfl) ih
  | case8 token rest hkind outer ih => exact .split hkind ih
  | case10 opened token rest hlinkOpen hhookOpen hhookClose hlinkClose ih =>
      refine .keepOther hlinkOpen (fun h => absurd h hlinkClose) ?_ ih
      cases hkind : token.kind <;> first | rfl | contradiction

section Resolved

variable {opened : List OpenBracket} {tokens resolved : List Token}

/-- Resolving keeps the tokens that are no brackets, in their order. -/
theorem Resolved.filter_plain (h : Resolved opened tokens resolved) :
    resolved.filter (fun token => !token.kind.isBracket) =
      tokens.filter fun token => !token.kind.isBracket := by
  induction h with
  | nil => rfl
  | keep _ _ _ ih => rw [List.filter_cons, List.filter_cons, ih]
  | swap hopen _ ih => simpa [hopen.1, hopen.2.1, Kind.isBracket] using ih
  | split hclose _ ih => simpa [hclose, Kind.isBracket] using ih

/-- Tokens without a bracket that come first among the resolved ones came first before. -/
theorem Resolved.prefix_of_plain (h : Resolved opened tokens resolved) :
    ∀ {part}, part <+: resolved → (∀ token ∈ part, token.kind.isBracket = false) →
      part <+: tokens := by
  induction h with
  | nil => exact fun hpart _ => hpart
  | @keep _ token rest resolved _ _ _ ih =>
      intro part hpart hplain
      cases part with
      | nil => exact List.nil_prefix
      | cons first part =>
          rcases List.cons_prefix_cons.1 hpart with ⟨rfl, hothers⟩
          exact List.cons_prefix_cons.2 ⟨rfl, ih hothers (List.forall_mem_cons.1 hplain).2⟩
  | swap | split =>
      intro part hpart hplain
      cases part with
      | nil => exact List.nil_prefix
      | cons first part =>
          obtain ⟨rfl, _⟩ := List.cons_prefix_cons.1 hpart
          cases hplain _ List.mem_cons_self

/-- Tokens in a row without a bracket among them stood in a row before. -/
theorem Resolved.infix_of_plain (h : Resolved opened tokens resolved) {part : List Token}
    (hplain : ∀ token ∈ part, token.kind.isBracket = false) (hpart : part <:+: resolved) :
    part <:+: tokens := by
  have hfront : ∀ {opened tokens resolved}, Resolved opened tokens resolved → part <+: resolved →
      part <:+: tokens := fun hresolved hprefix => (hresolved.prefix_of_plain hprefix hplain).isInfix
  -- in front of a bracket stands no part but the empty one
  have hbracket : ∀ {bracket : Token} {others : List Token}, bracket.kind.isBracket = true →
      part <:+: bracket :: others → part <:+: others := by
    intro bracket others hkind hinfix
    rcases List.infix_cons_iff.1 hinfix with hprefix | hothers
    · cases heq : part with
      | nil => exact List.nil_infix
      | cons first rest =>
          rw [heq] at hprefix
          obtain ⟨rfl, _⟩ := List.cons_prefix_cons.1 hprefix
          rw [hplain first (by simp [heq])] at hkind
          cases hkind
    · exact hothers
  induction h with
  | nil => exact hpart
  | keep hopen hclose hrest ih =>
      rcases List.infix_cons_iff.1 hpart with hprefix | hinfix
      · exact hfront (.keep hopen hclose hrest) hprefix
      · exact (ih hinfix).trans (List.suffix_cons _ _).isInfix
  | @swap opened token next rest resolved _ _ ih =>
      have hrest := ih (hbracket rfl (hbracket rfl hpart))
      exact hrest.trans (List.suffix_append [token, next] rest).isInfix
  | split _ _ ih => exact (ih (hbracket rfl (hbracket rfl hpart))).trans (List.suffix_cons _ _).isInfix

/-- Resolving spells the brackets that it makes as it should. -/
theorem Resolved.spelled (h : Resolved opened tokens resolved)
    (hspelled : ∀ token ∈ tokens, BracketSpelled token) : ∀ token ∈ resolved, BracketSpelled token := by
  induction h with
  | nil => exact hspelled
  | keep _ _ _ ih =>
      rw [List.forall_mem_cons] at hspelled ⊢
      exact ⟨hspelled.1, ih hspelled.2⟩
  | swap _ _ ih =>
      rw [List.forall_mem_cons, List.forall_mem_cons] at hspelled ⊢
      exact ⟨⟨by simp, by simp, by simp, by simp⟩, ⟨by simp, by simp, by simp, by simp⟩,
        ih hspelled.2.2⟩
  | split _ _ ih =>
      rw [List.forall_mem_cons] at hspelled
      rw [List.forall_mem_cons, List.forall_mem_cons]
      exact ⟨⟨by simp, by simp, by simp, by simp⟩, ⟨by simp, by simp, by simp, by simp⟩,
        ih hspelled.2⟩

end Resolved

/-! ### Tilings under resolution -/

/-- What follows a token may be retiled. -/
theorem Tiles.retile {offset : Nat} {cs : List Char} {token : Token} {rest other : List Token}
    (h : Tiles offset cs (token :: rest))
    (hrest : ∀ {offset cs}, Tiles offset cs rest → Tiles offset cs other) :
    Tiles offset cs (token :: other) := by
  cases h with
  | token hgap hsolid hkind htext hstart hstop htail =>
      exact .token hgap hsolid hkind htext hstart hstop (hrest htail)

theorem chars_of_text {token : Token} {chars : List Char} {text : String}
    (hchars : token.text = String.ofList chars) (htext : token.text = text) : chars = text.toList := by
  rw [← htext, hchars, String.toList_ofList]

theorem solidText_bracket {c : Char} (h : isBlank c = false) : SolidText [c] :=
  ⟨⟨c, rfl, h⟩, c, rfl, h⟩

/-- A closing run of two brackets may be tiled by one token for each. -/
theorem Tiles.splitClose {offset : Nat} {cs : List Char} {token : Token} {rest other : List Token}
    (h : Tiles offset cs (token :: rest)) (htext : token.text = "]]")
    (hrest : ∀ {offset cs}, Tiles offset cs rest → Tiles offset cs other) :
    Tiles offset cs (⟨.hookClose, "]", token.start, token.start + 1⟩ ::
      ⟨.hookClose, "]", token.start + 1, token.stop⟩ :: other) := by
  cases h with
  | @token _ gap text rest _ _ hgap _ _ htext' hstart hstop htail =>
      have hchars : text = [']', ']'] := chars_of_text htext' htext
      subst hchars
      have hblank : isBlank ']' = false := by decide
      have hsecond : Tiles (token.start + 1) (']' :: rest)
          (⟨.hookClose, "]", token.start + 1, token.stop⟩ :: other) := by
        rw [← List.singleton_append, ← List.nil_append ([']'] ++ rest)]
        exact .token (by simp) (solidText_bracket hblank) (by simp) rfl rfl hstop (hrest htail)
      show Tiles offset (gap ++ ([']'] ++ (']' :: rest))) _
      exact .token hgap (solidText_bracket hblank) (by simp) rfl hstart rfl hsecond

/-- A link bracket with a hook bracket directly behind it may be tiled the other way round. -/
theorem Tiles.swapOpen {offset : Nat} {cs : List Char} {token next : Token} {rest other : List Token}
    (h : Tiles offset cs (token :: next :: rest)) (htext : token.text = "[[")
    (hnext : next.text = "[") (htouches : next.start = token.stop)
    (hrest : ∀ {offset cs}, Tiles offset cs rest → Tiles offset cs other) :
    Tiles offset cs (⟨.hookOpen, "[", token.start, token.start + 1⟩ ::
      ⟨.linkOpen, "[[", token.start + 1, next.stop⟩ :: other) := by
  cases h with
  | @token _ gap text rest _ _ hgap _ _ htext' hstart hstop htail =>
      cases htail with
      | @token _ between text' rest _ _ _ _ _ hnext' hstart' hstop' htail =>
          have hchars : text = ['[', '['] := chars_of_text htext' htext
          have hchars' : text' = ['['] := chars_of_text hnext' hnext
          subst hchars hchars'
          -- nothing stands between two tokens that touch
          have hbetween : between = [] := eq_nil_of_byteLength (by omega)
          subst hbetween
          have hblank : isBlank '[' = false := by decide
          have hsecond : Tiles (token.start + 1) (['[', '['] ++ rest)
              (⟨.linkOpen, "[[", token.start + 1, next.stop⟩ :: other) := by
            rw [← List.nil_append (['[', '['] ++ rest)]
            refine .token (by simp) ⟨⟨'[', rfl, hblank⟩, '[', rfl, hblank⟩ (by simp) rfl rfl ?_
              (hrest htail)
            simp only [hstop', hstart', hstop]
            rfl
          show Tiles offset (gap ++ (['['] ++ (['[', '['] ++ rest))) _
          exact .token hgap (solidText_bracket hblank) (by simp) rfl hstart rfl hsecond

/-- Resolving the bracket runs of tokens that tile a text leaves tokens that tile it. -/
theorem Resolved.tiles {opened : List OpenBracket} {tokens resolved : List Token}
    (h : Resolved opened tokens resolved) (hspelled : ∀ token ∈ tokens, BracketSpelled token) :
    ∀ {offset cs}, Tiles offset cs tokens → Tiles offset cs resolved := by
  induction h with
  | nil => exact id
  | keep _ _ _ ih =>
      intro offset cs htiles
      exact htiles.retile (ih fun other hmem => hspelled other (List.mem_cons_of_mem _ hmem))
  | swap hopen _ ih =>
      intro offset cs htiles
      have hfirst := (hspelled _ List.mem_cons_self).linkOpen hopen.1
      have hsecond := (hspelled _ (by simp)).hookOpen hopen.2.1
      exact htiles.swapOpen hfirst hsecond hopen.2.2
        (ih fun other hmem => hspelled other (by simp [hmem]))
  | split hclose _ ih =>
      intro offset cs htiles
      have hfirst := (hspelled _ List.mem_cons_self).linkClose hclose
      exact htiles.splitClose hfirst (ih fun other hmem => hspelled other (List.mem_cons_of_mem _ hmem))

/-- The resolved tokens of a passage tile it. -/
theorem tiles_tokensOf (source : String) : Tiles 0 source.toList (tokensOf source) :=
  (resolved_resolveFrom [] (scan source)).tiles (bracketSpelled_scan source) (tiles_scan source)

end PassageMarkup
