/-
Module: PassageMarkup.Proofs.Lexing
Layer: Proofs
Purpose: Scanning as a relation. A text lexes into tokens by taking its leading token again and again.
  Every text lexes, into exactly the tokens that the scan answers, so the scan never ends early; and
  what a text lexes into tiles it. The main result puts this together: a passage is always tokenized,
  and its tokens with the blanks between them are the passage.
Imports: Passage.Phrases, Proofs.Leading, Proofs.Tiling
Main exports: Lexes, exists_lexes, scanFrom?_of_lexes, lexes_scan, tokenize_eq, Lexes.tiles, tiles_scan,
  tokenize_partitions_source
-/
import PassageMarkup.Passage.Phrases
import PassageMarkup.Proofs.Leading
import PassageMarkup.Proofs.Tiling

namespace PassageMarkup

open Text Recognise

/-- The characters `cs`, the first of which is at byte `offset`, are cut at their leading token again
and again into these tokens; blanks are dropped. -/
inductive Lexes : Nat → List Char → List Token → Prop where
  | nil {offset : Nat} : Lexes offset [] []
  | blank {offset : Nat} {gap rest : List Char} {tokens : List Token}
      (hleading : leading? (gap ++ rest) = some (.whitespace, gap.length))
      (hrest : Lexes (offset + byteLength gap) rest tokens) : Lexes offset (gap ++ rest) tokens
  | token {offset : Nat} {kind : Kind} {text rest : List Char} {tokens : List Token}
      (hleading : leading? (text ++ rest) = some (kind, text.length)) (hkind : kind ≠ .whitespace)
      (hrest : Lexes (offset + byteLength text) rest tokens) :
      Lexes offset (text ++ rest)
        (⟨kind, String.ofList text, offset, offset + byteLength text⟩ :: tokens)

/-- The leading token splits a text into its own characters and the rest. -/
theorem exists_leading_append {cs : List Char} (h : cs ≠ []) :
    ∃ kind text rest, cs = text ++ rest ∧ text ≠ [] ∧
      leading? (text ++ rest) = some (kind, text.length) := by
  obtain ⟨kind, n, hleading⟩ := exists_leading h
  have hread := recognise_of_leading hleading
  have hpos := kind.stable.pos hread
  have hle := kind.stable.le_length hread
  refine ⟨kind, cs.take n, cs.drop n, (List.take_append_drop n cs).symm, ?_, ?_⟩
  · rw [← List.length_pos_iff, List.length_take]
    omega
  · rw [List.take_append_drop, List.length_take, Nat.min_eq_left hle]
    exact hleading

/-- Every text lexes. -/
theorem exists_lexes (offset : Nat) (cs : List Char) : ∃ tokens, Lexes offset cs tokens := by
  by_cases hne : cs = []
  · exact ⟨[], hne ▸ .nil⟩
  · obtain ⟨kind, text, rest, hcs, htext, hleading⟩ := exists_leading_append hne
    have hlength : rest.length < cs.length := by
      have hpos := List.length_pos_iff.2 htext
      rw [hcs, List.length_append]
      omega
    obtain ⟨tokens, hrest⟩ := exists_lexes (offset + byteLength text) rest
    rw [hcs]
    by_cases hkind : kind = .whitespace
    · exact ⟨tokens, .blank (hkind ▸ hleading) hrest⟩
    · exact ⟨_, .token hleading hkind hrest⟩
termination_by cs.length

/-! ### The scan -/

/-- Characters of a token already taken are passed over. -/
theorem scanFrom?_skip (offset : Nat) (text rest : List Char) :
    scanFrom? offset text.length (text ++ rest) = scanFrom? (offset + byteLength text) 0 rest := by
  induction text generalizing offset with
  | nil => rfl
  | cons c text ih =>
      rw [List.length_cons, List.cons_append, scanFrom?, ih, byteLength, Nat.add_assoc]

/-- One step of the scan takes the leading token and goes on behind it. -/
theorem scanFrom?_step (offset : Nat) {kind : Kind} {text rest : List Char}
    (h : leading? (text ++ rest) = some (kind, text.length)) :
    scanFrom? offset 0 (text ++ rest) =
      (scanFrom? (offset + byteLength text) 0 rest).map fun tokens =>
        if kind = .whitespace then tokens
        else ⟨kind, String.ofList text, offset, offset + byteLength text⟩ :: tokens := by
  have hpos := kind.stable.pos (recognise_of_leading h)
  cases text with
  | nil => simp at hpos
  | cons c text =>
      have hrest : scanFrom? (offset + c.utf8Size) text.length (text ++ rest) =
          scanFrom? (offset + byteLength (c :: text)) 0 rest := by
        rw [scanFrom?_skip, byteLength, Nat.add_assoc]
      have htake : (c :: (text ++ rest)).take (c :: text).length = c :: text := by simp
      rw [List.cons_append] at h ⊢
      rw [scanFrom?, h]
      simp only [List.length_cons, Nat.add_sub_cancel, hrest]
      rw [← List.length_cons, htake]
      cases scanFrom? (offset + byteLength (c :: text)) 0 rest with
      | error position => rfl
      | ok tokens =>
          by_cases hkind : kind = .whitespace
          · simp only [hkind, if_true]
            rfl
          · simp only [hkind, if_false]
            rfl

/-- The scan answers what a text lexes into. -/
theorem scanFrom?_of_lexes {offset : Nat} {cs : List Char} {tokens : List Token}
    (h : Lexes offset cs tokens) : scanFrom? offset 0 cs = .ok tokens := by
  induction h with
  | nil => rfl
  | blank hleading _ ih =>
      rw [scanFrom?_step _ hleading, ih]
      rfl
  | token hleading hkind _ ih =>
      rw [scanFrom?_step _ hleading, ih]
      simp only [Except.map, if_neg hkind]

/-- The tokens of a passage are what its characters lex into. -/
theorem scan?_of_lexes {source : String} {tokens : List Token} (h : Lexes 0 source.toList tokens) :
    scan? source = .ok tokens ∧ scan source = tokens := by
  have hscan : scan? source = .ok tokens := scanFrom?_of_lexes h
  exact ⟨hscan, by rw [scan, hscan]⟩

theorem lexes_scan (source : String) : Lexes 0 source.toList (scan source) := by
  obtain ⟨tokens, h⟩ := exists_lexes 0 source.toList
  rwa [(scan?_of_lexes h).2]

/-- A passage is always tokenized. -/
theorem tokenize_eq (source : String) : tokenize source = .ok (scan source) := by
  rw [tokenize, (scan?_of_lexes (lexes_scan source)).1]
  rfl

/-! ### Tokens tile the passage -/

/-- A leading run of blanks consists of blanks. -/
theorem isBlank_of_leading {gap rest : List Char}
    (h : leading? (gap ++ rest) = some (.whitespace, gap.length)) : ∀ c ∈ gap, isBlank c = true := by
  obtain ⟨hlength, _⟩ := run_eq_some.1 (recognise_of_leading h)
  have hgap : gap = (gap ++ rest).takeWhile isBlank := by
    rw [← take_runLength, hlength, List.take_left]
  intro c hmem
  rw [hgap] at hmem
  exact List.all_eq_true.1 List.all_takeWhile c hmem

/-- A leading token other than blanks starts and ends with no blank. -/
theorem solidText_of_leading {kind : Kind} {text rest : List Char}
    (h : leading? (text ++ rest) = some (kind, text.length)) (hkind : kind ≠ .whitespace) :
    SolidText text := by
  have hread := recognise_of_leading h
  have hpos := kind.stable.pos hread
  have hsolid := kind.stable.solid hread
  cases text with
  | nil => simp at hpos
  | cons c text =>
      have hfirst : isBlank c = false := by
        rw [Bool.eq_false_iff]
        exact fun hblank => hkind ((leading_whitespace_iff h).2 hblank)
      refine ⟨⟨c, rfl, hfirst⟩, ?_⟩
      rw [List.take_left] at hsolid
      rcases hsolid with ⟨d, hd, hblank⟩ | hlast
      · rw [List.cons_append, List.head?_cons, Option.some.injEq] at hd
        rw [← hd, hfirst] at hblank
        exact absurd hblank Bool.false_ne_true
      · exact hlast

/-- What a text lexes into tiles it. -/
theorem Lexes.tiles {offset : Nat} {cs : List Char} {tokens : List Token}
    (h : Lexes offset cs tokens) : Tiles offset cs tokens := by
  induction h with
  | nil => exact .done (by simp)
  | blank hleading _ ih => exact .blank (isBlank_of_leading hleading) ih
  | @token offset kind text rest tokens hleading hkind _ ih =>
      rw [← List.nil_append (text ++ rest)]
      exact .token (by simp) (solidText_of_leading hleading hkind) hkind rfl rfl rfl ih

theorem tiles_scan (source : String) : Tiles 0 source.toList (scan source) :=
  (lexes_scan source).tiles

/-- Every passage is tokenized, and its tokens partition it: their byte ranges are nonempty, lie on
character boundaries and follow each other without overlap; the text of a token is the slice of the
passage at its range, is no white space and neither starts nor ends with a blank; the slices in front of,
between and behind the tokens are blank, and together with the tokens they are the passage. -/
theorem tokenize_partitions_source (source : String) :
    ∃ tokens, tokenize source = .ok tokens ∧
      (∀ token ∈ tokens, token.kind ≠ .whitespace ∧ token.start < token.stop ∧
        OnBoundary source token.start ∧ OnBoundary source token.stop ∧
        token.text = slice source token.start token.stop ∧ SolidText token.text.toList) ∧
      (tokens.Pairwise fun first second => first.stop ≤ second.start) ∧
      (∀ gap ∈ gapsFrom source 0 tokens, allBlank gap = true) ∧
      interleave (gapsFrom source 0 tokens) tokens = source := by
  have htiles := tiles_scan source
  obtain ⟨hblank, hjoined⟩ := htiles.gaps_interleave source [] rfl rfl
  refine ⟨scan source, tokenize_eq source, ?_, htiles.pairwise, hblank, ?_⟩
  · intro token hmem
    obtain ⟨_, _, _, _, _, hkind, _⟩ := htiles.exists_part token hmem
    exact ⟨hkind, (htiles.start_lt_stop token hmem).2, htiles.mem_slice hmem⟩
  · rw [hjoined, String.ofList_toList]

end PassageMarkup
