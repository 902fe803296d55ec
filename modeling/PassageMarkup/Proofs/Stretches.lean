/-
Module: PassageMarkup.Proofs.Stretches
Layer: Proofs
Purpose: Stretches of a passage: the text from the end of one token to the start of a later one, or the
  whole passage. The tokens of a stretch tile it, so apart from blanks at its ends it is the text that these
  tokens span, from the start of the first to the end of the last. Trimming a stretch gives that text, by
  the same notion of a blank by which tokens are told apart.
Imports: Proofs.Spans
Main exports: Tiles.spanText, spanText_of_all, Tiles.between, TrimmedAt, trimmedAt_of_tokens
-/
import PassageMarkup.Proofs.Spans

namespace PassageMarkup

open Text

/-- The text that the tokens of a tiled part of a source span is that part, trimmed; it is not blank. -/
theorem Tiles.spanText {source : String} {before cs behind : List Char} {tokens : List Token}
    (h : Tiles (byteLength before) cs tokens) (hsource : source.toList = before ++ cs ++ behind)
    (hne : tokens ≠ []) :
    spanText source tokens = trim (String.ofList cs) ∧ allBlank (String.ofList cs) = false := by
  have hfirst := List.head?_eq_some_head hne
  have hlast := List.getLast?_eq_some_getLast hne
  rcases h.core hfirst hlast with
    ⟨gap, middle, margin, rfl, hgap, hmargin, hsolid, hstart, hstop⟩
  have hparts : source.toList = (before ++ gap) ++ middle ++ (margin ++ behind) := by simp [hsource]
  have hslice := slice_of_parts hparts (by rw [hstart, byteLength_append]) hstop
  constructor
  · rw [PassageMarkup.spanText, hfirst, hlast]
    simp only
    rw [hslice, trim_of_solidText hsolid, trim_of_margins hgap hmargin hsolid]
  · rcases hsolid with ⟨⟨c, hc, hblank⟩, _⟩
    rw [allBlank, String.toList_ofList, List.all_eq_false]
    have hmem : c ∈ middle := List.mem_of_head? hc
    exact ⟨c, by simp [hmem], by simp [hblank]⟩

/-- All the tokens of a source span the source, trimmed. -/
theorem spanText_of_all {source : String} {tokens : List Token} (h : Tiles 0 source.toList tokens)
    (hne : tokens ≠ []) : spanText source tokens = trim source ∧ allBlank source = false := by
  have hwhole : source.toList = [] ++ source.toList ++ [] := by simp
  have htiles : Tiles (byteLength []) source.toList tokens := h
  have hspan := htiles.spanText hwhole hne
  rwa [String.ofList_toList] at hspan

/-! ### Between two tokens -/

/-- The text between two tokens is tiled by the tokens between them. -/
theorem Tiles.between {source : String} {tokens before inside behind : List Token} {first last : Token}
    (h : Tiles 0 source.toList tokens) (htokens : tokens = before ++ first :: (inside ++ last :: behind)) :
    ∃ front middle back, source.toList = front ++ middle ++ back ∧ first.stop = byteLength front ∧
      last.start = first.stop + byteLength middle ∧ Tiles first.stop middle inside := by
  rcases h.around before first _ htokens with ⟨front, back, hsource, hstart, hstop, _, _, _, hback⟩
  rcases hback.around inside last behind rfl with ⟨middle, later, rfl, hend, _, _, _, hmiddle, _⟩
  refine ⟨front ++ first.text.toList, middle, last.text.toList ++ later, by simp [hsource], ?_, hend,
    hmiddle⟩
  rw [byteLength_append]
  omega

/-- A text that is a slice of a source, trimmed; the slice is cut between characters and is not blank. -/
structure TrimmedAt (source : String) (start stop : Nat) (text : String) : Prop where
  start_onBoundary : OnBoundary source start
  stop_onBoundary : OnBoundary source stop
  not_blank : allBlank (slice source start stop) = false
  text_eq : text = trim (slice source start stop)

/-- The tokens between two others span the slice from the end of the one to the start of the other,
trimmed. -/
theorem trimmedAt_of_tokens {source : String} {tokens before inside behind : List Token}
    {first last : Token} (h : Tiles 0 source.toList tokens)
    (htokens : tokens = before ++ first :: (inside ++ last :: behind)) (hne : inside ≠ []) :
    TrimmedAt source first.stop last.start (spanText source inside) := by
  rcases h.between htokens with ⟨front, middle, back, hsource, hstart, hstop, hmiddle⟩
  have hslice := slice_of_parts hsource hstart hstop
  rw [hstart] at hmiddle
  rcases hmiddle.spanText hsource hne with ⟨hspan, hblank⟩
  refine ⟨⟨front, middle ++ back, by simp [hsource], hstart.symm⟩, ⟨front ++ middle, back, hsource, ?_⟩,
    ?_, ?_⟩
  · rw [byteLength_append, hstop, hstart]
  · rw [hslice]
    exact hblank
  · rw [hslice]
    exact hspan

end PassageMarkup
