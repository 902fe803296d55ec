/-
Module: PassageMarkup.Proofs.Slices
Layer: Proofs
Purpose: Scanning a part of a passage that starts and ends with a token. Where a text starts does not
  matter to its tokens, except for their byte ranges. Where it ends could matter, because recognisers
  look ahead; but the end of a token is always a clean cut, and clean cuts disturb no leading token. So
  the slice from one token to a later one has exactly the tokens from the one to the other.
Imports: Proofs.Lexing
Main exports: Token.shiftLeft, Lexes.shiftLeft, Lexes.suffix, Lexes.cut, scan_slice_chosen, tokenize_slice
-/
import PassageMarkup.Proofs.Lexing

namespace PassageMarkup

open Text Recognise

/-- A token of a text as a token of the part of that text behind its first `offset` bytes. -/
def Token.shiftLeft (offset : Nat) (token : Token) : Token :=
  { token with start := token.start - offset, stop := token.stop - offset }

/-- The byte offset at which a text starts only moves the byte ranges of its tokens. -/
theorem Lexes.shiftLeft {position : Nat} {cs : List Char} {tokens : List Token}
    (h : Lexes position cs tokens) : ∀ base offset, position = base + offset →
      Lexes offset cs (tokens.map (Token.shiftLeft base)) := by
  induction h with
  | nil =>
      intro base offset _
      exact .nil
  | @blank position gap rest tokens hleading _ ih =>
      intro base offset heq
      refine .blank hleading (ih base (offset + byteLength gap) ?_)
      omega
  | @token position kind text rest tokens hleading hkind _ ih =>
      intro base offset heq
      have hfirst : Token.shiftLeft base
          ⟨kind, String.ofList text, position, position + byteLength text⟩ =
            ⟨kind, String.ofList text, offset, offset + byteLength text⟩ := by
        simp only [Token.shiftLeft, Token.mk.injEq, true_and]
        omega
      rw [List.map_cons, hfirst]
      refine .token hleading hkind (ih base (offset + byteLength text) ?_)
      omega

/-- The tokens from some token on are the tokens of the text from that token on. -/
theorem Lexes.suffix {offset : Nat} {cs : List Char} {tokens : List Token}
    (h : Lexes offset cs tokens) : ∀ before first behind, tokens = before ++ first :: behind →
      ∃ front back, cs = front ++ back ∧ first.start = offset + byteLength front ∧
        Lexes (offset + byteLength front) back (first :: behind) := by
  induction h with
  | nil =>
      intro before first behind heq
      simp at heq
  | @blank offset gap rest tokens _ _ ih =>
      intro before first behind heq
      obtain ⟨front, back, rfl, hstart, hlexes⟩ := ih before first behind heq
      refine ⟨gap ++ front, back, (List.append_assoc gap front back).symm, ?_, ?_⟩
      · rw [hstart, byteLength_append, Nat.add_assoc]
      · rwa [byteLength_append, ← Nat.add_assoc]
  | @token offset kind text rest tokens hleading hkind hrest ih =>
      intro before first behind heq
      cases before with
      | nil =>
          obtain ⟨rfl, rfl⟩ := List.cons.inj heq
          exact ⟨[], text ++ rest, rfl, rfl, .token hleading hkind hrest⟩
      | cons other before =>
          obtain ⟨_, htail⟩ := List.cons.inj heq
          obtain ⟨front, back, rfl, hstart, hlexes⟩ := ih before first behind htail
          refine ⟨text ++ front, back, (List.append_assoc text front back).symm, ?_, ?_⟩
          · rw [hstart, byteLength_append, Nat.add_assoc]
          · rwa [byteLength_append, ← Nat.add_assoc]

/-- The tokens up to some token are the tokens of the text up to the end of that token. The induction
carries along that this end is a clean cut, which is what keeps the leading tokens in front of it. -/
theorem Lexes.cut {offset : Nat} {cs : List Char} {tokens : List Token}
    (h : Lexes offset cs tokens) : ∀ before last behind, tokens = before ++ last :: behind →
      ∃ front back, cs = front ++ back ∧ front ≠ [] ∧ last.stop = offset + byteLength front ∧
        CleanCut front back ∧ Lexes offset front (before ++ [last]) := by
  induction h with
  | nil =>
      intro before last behind heq
      simp at heq
  | @blank offset gap rest tokens hleading _ ih =>
      intro before last behind heq
      obtain ⟨front, back, rfl, hne, hstop, hclean, hlexes⟩ := ih before last behind heq
      have hcut : CleanCut (gap ++ front) back := hclean.append hne
      rw [← List.append_assoc] at hleading
      refine ⟨gap ++ front, back, (List.append_assoc gap front back).symm, by simp [hne], ?_, hcut,
        .blank (leading?_cut hcut hleading (by simp)) hlexes⟩
      rw [hstop, byteLength_append, Nat.add_assoc]
  | @token offset kind text rest tokens hleading hkind hrest ih =>
      intro before last behind heq
      cases before with
      | nil =>
          obtain ⟨rfl, rfl⟩ := List.cons.inj heq
          have hread := recognise_of_leading hleading
          have hpos := kind.stable.pos hread
          have hcut : CleanCut text rest := by
            have hclean := kind.stable.clean hread
            rwa [List.take_left, List.drop_left] at hclean
          have hown : leading? (text ++ []) = some (kind, text.length) := by
            rw [List.append_nil]
            exact leading?_cut hcut hleading (Nat.le_refl _)
          refine ⟨text, rest, rfl, List.length_pos_iff.1 hpos, rfl, hcut, ?_⟩
          have hlexes : Lexes offset (text ++ []) [_] := .token hown hkind .nil
          rwa [List.append_nil] at hlexes
      | cons other before =>
          obtain ⟨rfl, htail⟩ := List.cons.inj heq
          obtain ⟨front, back, rfl, hne, hstop, hclean, hlexes⟩ := ih before last behind htail
          have hcut : CleanCut (text ++ front) back := hclean.append hne
          rw [← List.append_assoc] at hleading
          refine ⟨text ++ front, back, (List.append_assoc text front back).symm, by simp [hne], ?_,
            hcut, .token (leading?_cut hcut hleading (by simp)) hkind hlexes⟩
          rw [hstop, byteLength_append, Nat.add_assoc]

/-- Scanning from the start of one token to the end of another gives the tokens between them, where
`chosen` are these tokens, with `first` and `last` at its ends. -/
theorem scan_slice_chosen {source : String} {before chosen behind : List Token} {first last : Token}
    (htokens : scan source = before ++ chosen ++ behind) (hfirst : chosen.head? = some first)
    (hlast : chosen.getLast? = some last) :
    scan (slice source first.start last.stop) = chosen.map (Token.shiftLeft first.start) := by
  obtain ⟨rest, rfl⟩ : ∃ rest, chosen = first :: rest := by
    cases chosen with
    | nil => simp at hfirst
    | cons other rest =>
        rw [List.head?_cons, Option.some.injEq] at hfirst
        exact ⟨rest, by rw [hfirst]⟩
  obtain ⟨others, hothers⟩ := List.getLast?_eq_some_iff.1 hlast
  obtain ⟨skipped, text, hsource, hstart, hlexes⟩ :=
    (lexes_scan source).suffix before first (rest ++ behind) (by simp [htokens])
  obtain ⟨front, back, rfl, _, hstop, _, hfront⟩ :=
    hlexes.cut others last behind (by rw [← List.cons_append, hothers]; simp)
  rw [Nat.zero_add] at hstart hstop hfront
  have hslice : slice source first.start last.stop = String.ofList front := by
    rw [hstart, hstop]
    exact slice_eq (by rw [hsource, List.append_assoc])
  rw [← hothers, ← hstart] at hfront
  have hshifted := hfront.shiftLeft first.start 0 rfl
  rw [hslice]
  exact (scan?_of_lexes (by rwa [String.toList_ofList])).2

/-- The slice of a passage from the start of one of its tokens to the end of the same or a later one
has exactly the tokens from the one to the other, moved to the start of the slice; in particular the
text of a token is that one token again. -/
theorem tokenize_slice {source : String} {tokens : List Token} (htokens : tokenize source = .ok tokens)
    (i j : Nat) (hij : i ≤ j) (hj : j < tokens.length) :
    tokenize (slice source tokens[i].start tokens[j].stop) =
        .ok (((tokens.take (j + 1)).drop i).map (Token.shiftLeft tokens[i].start)) ∧
      ∀ token ∈ tokens, tokenize token.text = .ok [token.shiftLeft token.start] := by
  rw [tokenize_eq, Except.ok.injEq] at htokens
  refine ⟨?_, ?_⟩
  · have hparts : scan source = tokens.take i ++ (tokens.take (j + 1)).drop i ++ tokens.drop (j + 1) := by
      have htake : tokens.take i = (tokens.take (j + 1)).take i := by
        rw [List.take_take, Nat.min_eq_left (by omega)]
      rw [htokens, htake, List.take_append_drop, List.take_append_drop]
    have hfirst : ((tokens.take (j + 1)).drop i).head? = some tokens[i] := by
      rw [List.head?_drop, List.getElem?_take_of_lt (by omega), List.getElem?_eq_getElem (by omega)]
    have hlast : ((tokens.take (j + 1)).drop i).getLast? = some tokens[j] := by
      rw [List.getLast?_drop, if_neg (by rw [List.length_take]; omega), List.getLast?_take]
      simp [hj]
    rw [tokenize_eq, scan_slice_chosen hparts hfirst hlast]
  · intro token hmem
    obtain ⟨before, behind, hsplit⟩ := List.append_of_mem hmem
    have hparts : scan source = before ++ [token] ++ behind := by simp [htokens, hsplit]
    have htext : token.text = slice source token.start token.stop :=
      ((tiles_scan source).mem_slice (htokens ▸ hmem)).2.2.1
    have hone : scan (slice source token.start token.stop) =
        [token].map (Token.shiftLeft token.start) := scan_slice_chosen hparts rfl rfl
    rw [tokenize_eq, htext, hone]
    rfl

/-- Cutting behind `not` makes no comparison of the words in front of the cut, although `contains`
starts like the word that would complete one. -/
theorem tokenize_slice_does_not :
    tokenize "It does not contains" = .ok [⟨.text, "It", 0, 2⟩, ⟨.text, "does", 3, 7⟩,
        ⟨.text, "not", 8, 11⟩, ⟨.comparison, "contains", 12, 20⟩] ∧
      tokenize "does not" = .ok [⟨.text, "does", 0, 4⟩, ⟨.text, "not", 5, 8⟩] := by
  have htokens : tokenize "It does not contains" = .ok [⟨.text, "It", 0, 2⟩, ⟨.text, "does", 3, 7⟩,
      ⟨.text, "not", 8, 11⟩, ⟨.comparison, "contains", 12, 20⟩] := by
    rw [tokenize_eq, Except.ok.injEq]
    decide +kernel
  have htext : slice "It does not contains" 3 11 = "does not" := by decide +kernel
  have hslice := (tokenize_slice htokens 1 2 (by decide) (by decide)).1
  exact ⟨htokens, htext ▸ hslice⟩

end PassageMarkup
