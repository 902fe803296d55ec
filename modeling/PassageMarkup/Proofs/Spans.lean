/-
Module: PassageMarkup.Proofs.Spans
Layer: Proofs
Purpose: The text that several tokens in a row span. In a tiled source it starts with the first token and
  ends with the last, so it neither starts nor ends with a blank: trimming leaves it as it is, and it is
  never blank. The sides of a link are such texts, with the last arrow between them.
Imports: Passage.Phrases, Proofs.Tiling
Main exports: Tiles.core, Tiles.span, trim_of_margins, trim_of_solidText, spanText_eq,
  splitAtLastArrow?_eq_some, splitAtLastArrow?_of_last, splitAtLastArrow?_eq_none_iff,
  parts_of_splitAtLastArrow?
-/
import PassageMarkup.Passage.Phrases
import PassageMarkup.Proofs.Tiling

namespace PassageMarkup

open Text

/-- A text with tokens is what they span, with blanks on both sides of it. -/
theorem Tiles.core {offset : Nat} {cs : List Char} {tokens : List Token} (h : Tiles offset cs tokens) :
    ∀ {first last : Token}, tokens.head? = some first → tokens.getLast? = some last →
      ∃ gap middle margin, cs = gap ++ middle ++ margin ∧ (∀ c ∈ gap, isBlank c = true) ∧
        (∀ c ∈ margin, isBlank c = true) ∧ SolidText middle ∧ first.start = offset + byteLength gap ∧
        last.stop = first.start + byteLength middle := by
  induction h with
  | done =>
      intro first last hfirst
      cases hfirst
  | @token offset gap text rest token tokens hgap hsolid _ _ hstart hstop hrest ih =>
      intro first last hfirst hlast
      obtain rfl : token = first := Option.some.inj hfirst
      cases tokens with
      | nil =>
          obtain rfl : token = last := Option.some.inj hlast
          exact ⟨gap, text, rest, by simp, hgap, hrest.blank_of_nil, hsolid, hstart, hstop⟩
      | cons next tokens =>
          rw [List.getLast?_cons_cons] at hlast
          rcases ih rfl hlast with
            ⟨space, middle, margin, rfl, _, hmargin, ⟨_, c, hc, hblank⟩, hnext, hend⟩
          rcases hsolid with ⟨⟨d, hd, hfirstBlank⟩, _⟩
          refine ⟨gap, text ++ (space ++ middle), margin, by simp, hgap, hmargin,
            ⟨⟨d, ?_, hfirstBlank⟩, c, ?_, hblank⟩, hstart, ?_⟩
          · rw [List.head?_append, hd, Option.some_or]
          · rw [List.getLast?_append, List.getLast?_append, hc, Option.some_or, Option.some_or]
          · simp only [byteLength_append]
            omega

/-- The text from the first to the last of some tokens in a row is a part of the tiled text that
neither starts nor ends with a blank. -/
theorem Tiles.span {offset : Nat} {cs : List Char} {tokens : List Token} (h : Tiles offset cs tokens) :
    ∀ before part behind first last, tokens = before ++ (part ++ behind) → part.head? = some first →
      part.getLast? = some last → ∃ front middle back, cs = front ++ middle ++ back ∧
        SolidText middle ∧ first.start = offset + byteLength front ∧
        last.stop = first.start + byteLength middle := by
  rintro before part behind first last rfl hfirst hlast
  rcases h.split with ⟨front, rest, rfl, _, hrest⟩
  rcases hrest.split with ⟨inner, back, rfl, hinner, _⟩
  rcases hinner.core hfirst hlast with ⟨gap, middle, margin, rfl, _, _, hsolid, hstart, hstop⟩
  refine ⟨front ++ gap, middle, margin ++ back, by simp, hsolid, ?_, hstop⟩
  rw [hstart, byteLength_append, Nat.add_assoc]

/-! ### Trimming -/

theorem dropWhile_of_head {cs : List Char} {c : Char} (h : cs.head? = some c)
    (hblank : isBlank c = false) : cs.dropWhile isBlank = cs := by
  cases cs with
  | nil => rfl
  | cons d cs =>
      obtain rfl : d = c := by simpa using h
      simp [hblank]

/-- Trimming takes away the blanks on both sides of a text that has none at its own ends. -/
theorem trim_of_margins {gap middle margin : List Char} (hgap : ∀ c ∈ gap, isBlank c = true)
    (hmargin : ∀ c ∈ margin, isBlank c = true) (hsolid : SolidText middle) :
    trim (String.ofList (gap ++ middle ++ margin)) = String.ofList middle := by
  rcases hsolid with ⟨⟨first, hfirst, hfirstBlank⟩, last, hlast, hlastBlank⟩
  have hleft : trimLeft (gap ++ middle ++ margin) = middle ++ margin := by
    rw [trimLeft, List.append_assoc, List.dropWhile_append_of_pos hgap]
    exact dropWhile_of_head (by rw [List.head?_append, hfirst, Option.some_or]) hfirstBlank
  have hreversed : ∀ c ∈ margin.reverse, isBlank c = true := by simpa using hmargin
  have hright : trimRight (middle ++ margin) = middle := by
    rw [trimRight, List.reverse_append, List.dropWhile_append_of_pos hreversed,
      dropWhile_of_head (by rwa [List.head?_reverse]) hlastBlank, List.reverse_reverse]
  rw [trim, String.toList_ofList, trimChars, hleft, hright]

/-- A text that neither starts nor ends with a blank is trimmed already. -/
theorem trim_of_solidText {text : List Char} (h : SolidText text) :
    trim (String.ofList text) = String.ofList text := by
  have htrim := @trim_of_margins [] text [] (by simp) (by simp) h
  rwa [List.nil_append, List.append_nil] at htrim

theorem allBlank_of_solidText {text : List Char} (h : SolidText text) :
    allBlank (String.ofList text) = false := by
  obtain ⟨⟨first, hfirst, hblank⟩, _⟩ := h
  rw [allBlank, String.toList_ofList, List.all_eq_false]
  exact ⟨first, List.mem_of_head? hfirst, by simp [hblank]⟩

/-- The text that tokens in a row span is the slice of the source from the first to the last of them,
with no blank at either end. -/
theorem spanText_eq {source : String} {tokens part : List Token} (h : Tiles 0 source.toList tokens)
    (hpart : part <:+: tokens) {first last : Token} (hfirst : part.head? = some first)
    (hlast : part.getLast? = some last) :
    ∃ middle, SolidText middle ∧ spanText source part = String.ofList middle ∧
      slice source first.start last.stop = String.ofList middle := by
  obtain ⟨before, behind, htokens⟩ := hpart
  obtain ⟨front, middle, back, hsource, hsolid, hstart, hstop⟩ :=
    h.span before part behind first last (by rw [← htokens, List.append_assoc]) hfirst hlast
  have hslice : slice source first.start last.stop = String.ofList middle := by
    rw [hstop, hstart, Nat.zero_add]
    exact slice_eq hsource
  refine ⟨middle, hsolid, ?_, hslice⟩
  rw [spanText, hfirst, hlast]
  exact (congrArg trim hslice).trans (trim_of_solidText hsolid)

/-- The text that tokens in a row span is not blank. -/
theorem allBlank_spanText {source : String} {tokens part : List Token}
    (h : Tiles 0 source.toList tokens) (hpart : part <:+: tokens) (hne : part ≠ []) :
    allBlank (spanText source part) = false := by
  obtain ⟨middle, hsolid, hspan, _⟩ :=
    spanText_eq h hpart (List.head?_eq_some_head hne) (List.getLast?_eq_some_getLast hne)
  rw [hspan]
  exact allBlank_of_solidText hsolid

/-! ### The sides of a link -/

/-- Splitting at the last arrow takes out that arrow and nothing else. -/
theorem splitAtLastArrow?_eq_some {inside text target : List Token}
    (h : splitAtLastArrow? inside = some (text, target)) :
    ∃ arrow, arrow.kind = .linkArrow ∧ inside = text ++ arrow :: target := by
  unfold splitAtLastArrow? at h
  simp only at h
  split at h
  · cases h
  · next arrow before hdrop =>
    cases h
    refine ⟨arrow, ?_, ?_⟩
    · have hne : inside.reverse.dropWhile (fun token => token.kind != .linkArrow) ≠ [] := by
        simp [hdrop]
      simpa [hdrop] using List.head_dropWhile_not _ hne
    · have hparts : inside.reverse.takeWhile (fun token => token.kind != .linkArrow) ++
          arrow :: before = inside.reverse := by
        rw [← hdrop]
        exact List.takeWhile_append_dropWhile
      have hinside := congrArg List.reverse hparts
      rw [List.reverse_reverse, List.reverse_append] at hinside
      simpa using hinside.symm

/-- Tokens are split at the arrow behind which there is no other. -/
theorem splitAtLastArrow?_of_last {text target : List Token} {arrow : Token}
    (harrow : arrow.kind = .linkArrow) (htarget : ∀ token ∈ target, token.kind ≠ .linkArrow) :
    splitAtLastArrow? (text ++ arrow :: target) = some (text, target) := by
  have hreverse : (text ++ arrow :: target).reverse = target.reverse ++ arrow :: text.reverse := by simp
  have hside : ∀ token ∈ target.reverse, (token.kind != .linkArrow) = true := by simpa using htarget
  unfold splitAtLastArrow?
  simp only
  rw [hreverse, List.dropWhile_append_of_pos hside, List.takeWhile_append_of_pos hside]
  simp [harrow]

/-- Behind the arrow at which tokens are split there is no other. -/
theorem not_arrow_of_splitAtLastArrow? {inside text target : List Token}
    (h : splitAtLastArrow? inside = some (text, target)) : ∀ token ∈ target, token.kind ≠ .linkArrow := by
  unfold splitAtLastArrow? at h
  simp only at h
  split at h
  · cases h
  · cases h
    intro token hmem
    have hside := List.all_eq_true.1 List.all_takeWhile token (List.mem_reverse.1 hmem)
    simpa using hside

/-- Tokens are not split exactly if there is no arrow among them. -/
theorem splitAtLastArrow?_eq_none_iff {inside : List Token} :
    splitAtLastArrow? inside = none ↔ ∀ token ∈ inside, token.kind ≠ .linkArrow := by
  constructor
  · intro h token hmem harrow
    unfold splitAtLastArrow? at h
    simp only at h
    split at h
    · next hdrop =>
      have hall : inside.reverse.takeWhile (fun token => token.kind != .linkArrow) = inside.reverse := by
        rw [← List.append_nil (List.takeWhile _ _), ← hdrop, List.takeWhile_append_dropWhile]
      have hside := List.all_eq_true.1 List.all_takeWhile token (hall ▸ List.mem_reverse.2 hmem)
      simp [harrow] at hside
    · cases h
  · intro h
    cases hsplit : splitAtLastArrow? inside with
    | none => rfl
    | some sides =>
        rcases splitAtLastArrow?_eq_some hsplit with ⟨arrow, harrow, hinside⟩
        exact absurd harrow (h arrow (by simp [hinside]))

/-- Both sides are parts of what is split. -/
theorem parts_of_splitAtLastArrow? {inside text target : List Token}
    (h : splitAtLastArrow? inside = some (text, target)) :
    text <:+: inside ∧ target <:+: inside := by
  rcases splitAtLastArrow?_eq_some h with ⟨arrow, _, rfl⟩
  exact ⟨(List.prefix_append _ _).isInfix, ⟨text ++ [arrow], [], by simp⟩⟩

end PassageMarkup
