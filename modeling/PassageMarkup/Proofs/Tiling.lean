/-
Module: PassageMarkup.Proofs.Tiling
Layer: Proofs
Purpose: Token lists that tile a text: the text is the texts of the tokens in order, with nothing but
  blanks between them, and every token has the byte range of its text. All facts about byte ranges are
  read off this one relation: the ranges are nonempty, increasing and on character boundaries, a token's
  text is the slice of the source at its range, and the slices between the tokens are blank.
Imports: Text.Slice, Token.Basic
Main exports: OnBoundary, SolidText, Tiles, gapsFrom, interleave, Tiles.pairwise, Tiles.split,
  Tiles.around, Tiles.mem_slice, Tiles.gaps_interleave
-/
import PassageMarkup.Text.Slice
import PassageMarkup.Token.Basic

namespace PassageMarkup

open Text

/-! ### Byte positions -/

/-- A byte offset at which a character of the text starts or the text ends. -/
def OnBoundary (source : String) (offset : Nat) : Prop :=
  ∃ before behind, source.toList = before ++ behind ∧ byteLength before = offset

/-- The size of a text in bytes is the sum over its characters. -/
theorem utf8ByteSize_ofList (cs : List Char) : (String.ofList cs).utf8ByteSize = byteLength cs := by
  induction cs with
  | nil => rfl
  | cons c cs ih =>
      rw [String.ofList_cons, String.utf8ByteSize_append, ih, String.utf8ByteSize_singleton,
        byteLength]

theorem utf8ByteSize_eq (source : String) : source.utf8ByteSize = byteLength source.toList := by
  rw [← utf8ByteSize_ofList, String.ofList_toList]

theorem byteLength_pos {cs : List Char} (h : cs ≠ []) : 0 < byteLength cs := by
  cases cs with
  | nil => exact absurd rfl h
  | cons c cs =>
      have hpos := Char.utf8Size_pos c
      rw [byteLength]
      omega

theorem eq_nil_of_byteLength {cs : List Char} (h : byteLength cs = 0) : cs = [] := by
  cases cs with
  | nil => rfl
  | cons c cs => exact absurd h (Nat.ne_of_gt (byteLength_pos (List.cons_ne_nil c cs)))

/-- The slice between the end of one part of a text and the end of the next is that next part. -/
theorem slice_eq {source : String} {before middle behind : List Char}
    (h : source.toList = before ++ middle ++ behind) :
    slice source (byteLength before) (byteLength before + byteLength middle) =
      String.ofList middle := by
  rw [slice, h, List.append_assoc, dropBytes_append, Nat.add_sub_cancel_left, takeBytes_append]

theorem OnBoundary.le_size {source : String} {offset : Nat} (h : OnBoundary source offset) :
    offset ≤ source.utf8ByteSize := by
  rcases h with ⟨before, behind, hsource, rfl⟩
  rw [utf8ByteSize_eq, hsource, byteLength_append]
  exact Nat.le_add_right _ _

/-- Between boundaries of characters there is always a part of the text. -/
theorem part?_of_onBoundary {source : String} {start stop : Nat} (hstart : OnBoundary source start)
    (hstop : OnBoundary source stop) : part? source start stop = some (slice source start stop) := by
  have htaken : ∀ {offset : Nat}, OnBoundary source offset →
      byteLength (takeBytes offset source.toList) = offset := by
    rintro offset ⟨before, behind, hsource, rfl⟩
    rw [hsource, takeBytes_append]
  simp [part?, htaken hstart, htaken hstop]

/-- The slice at the place of a part of a text is that part. -/
theorem slice_of_parts {source : String} {before middle behind : List Char} {start stop : Nat}
    (h : source.toList = before ++ middle ++ behind) (hstart : start = byteLength before)
    (hstop : stop = start + byteLength middle) : slice source start stop = String.ofList middle := by
  rw [hstop, hstart]
  exact slice_eq h

/-! ### The relation -/

/-- A text that starts and ends with a character other than a blank. -/
def SolidText (text : List Char) : Prop :=
  (∃ first, text.head? = some first ∧ isBlank first = false) ∧
    ∃ last, text.getLast? = some last ∧ isBlank last = false

theorem SolidText.ne_nil {text : List Char} (h : SolidText text) : text ≠ [] := by
  rintro rfl
  obtain ⟨⟨first, hfirst, _⟩, _⟩ := h
  simp at hfirst

/-- The characters `cs`, the first of which is at byte `offset`, are the texts of the tokens in order
with blanks between them. -/
inductive Tiles : Nat → List Char → List Token → Prop where
  | done {offset : Nat} {gap : List Char} (hgap : ∀ c ∈ gap, isBlank c = true) :
      Tiles offset gap []
  | token {offset : Nat} {gap text rest : List Char} {token : Token} {tokens : List Token}
      (hgap : ∀ c ∈ gap, isBlank c = true) (hsolid : SolidText text)
      (hkind : token.kind ≠ .whitespace) (htext : token.text = String.ofList text)
      (hstart : token.start = offset + byteLength gap)
      (hstop : token.stop = token.start + byteLength text) (hrest : Tiles token.stop rest tokens) :
      Tiles offset (gap ++ (text ++ rest)) (token :: tokens)

/-- More blanks in front leave a tiling. -/
theorem Tiles.blank {offset : Nat} {gap cs : List Char} {tokens : List Token}
    (hgap : ∀ c ∈ gap, isBlank c = true) (h : Tiles (offset + byteLength gap) cs tokens) :
    Tiles offset (gap ++ cs) tokens := by
  have hboth : ∀ {other : List Char}, (∀ c ∈ other, isBlank c = true) →
      ∀ c ∈ gap ++ other, isBlank c = true := by
    intro other hother c hmem
    exact (List.mem_append.1 hmem).elim (hgap c) (hother c)
  cases h with
  | done hother => exact .done (hboth hother)
  | token hother hsolid hkind htext hstart hstop hrest =>
      rw [← List.append_assoc]
      refine .token (hboth hother) hsolid hkind htext ?_ hstop hrest
      rw [hstart, byteLength_append, Nat.add_assoc]

/-- A text without tokens is blank. -/
theorem Tiles.blank_of_nil {offset : Nat} {cs : List Char} (h : Tiles offset cs []) :
    ∀ c ∈ cs, isBlank c = true := by
  cases h with
  | done hgap => exact hgap

/-! ### Byte ranges -/

theorem Tiles.start_lt_stop {offset : Nat} {cs : List Char} {tokens : List Token}
    (h : Tiles offset cs tokens) : ∀ token ∈ tokens, offset ≤ token.start ∧ token.start < token.stop := by
  induction h with
  | done => simp
  | token _ hsolid _ _ hstart hstop _ ih =>
      have hpos := byteLength_pos hsolid.ne_nil
      intro other hmem
      rcases List.mem_cons.1 hmem with rfl | hmem
      · omega
      · have hother := ih other hmem
        omega

/-- The byte ranges follow each other without overlap. -/
theorem Tiles.pairwise {offset : Nat} {cs : List Char} {tokens : List Token}
    (h : Tiles offset cs tokens) : tokens.Pairwise fun first second => first.stop ≤ second.start := by
  induction h with
  | done => exact .nil
  | token _ _ _ _ _ _ hrest ih =>
      exact .cons (fun other hmem => (hrest.start_lt_stop other hmem).1) ih

/-- A tiled text falls apart where its tokens do. -/
theorem Tiles.split {offset : Nat} {cs : List Char} {first second : List Token}
    (h : Tiles offset cs (first ++ second)) : ∃ front back, cs = front ++ back ∧
      Tiles offset front first ∧ Tiles (offset + byteLength front) back second := by
  induction first generalizing offset cs with
  | nil => exact ⟨[], cs, rfl, .done (by simp), h⟩
  | cons token first ih =>
      cases h with
      | @token _ gap text rest _ _ hgap hsolid hkind htext hstart hstop hrest =>
          rcases ih hrest with ⟨front, back, rfl, hfront, hback⟩
          have hoffset : offset + byteLength (gap ++ (text ++ front)) = token.stop + byteLength front := by
            simp only [byteLength_append]
            omega
          refine ⟨gap ++ (text ++ front), back, by simp,
            .token hgap hsolid hkind htext hstart hstop hfront, ?_⟩
          rw [hoffset]
          exact hback

/-- A tiled text around one of its tokens. -/
theorem Tiles.around {offset : Nat} {cs : List Char} {tokens : List Token}
    (h : Tiles offset cs tokens) : ∀ before token behind, tokens = before ++ token :: behind →
      ∃ front back, cs = front ++ (token.text.toList ++ back) ∧
        token.start = offset + byteLength front ∧
        token.stop = token.start + byteLength token.text.toList ∧
        SolidText token.text.toList ∧ token.kind ≠ .whitespace ∧
        Tiles offset front before ∧ Tiles token.stop back behind := by
  induction h with
  | done =>
      intro before token behind heq
      simp at heq
  | @token offset gap text rest first tokens hgap hsolid hkind htext hstart hstop hrest ih =>
      intro before token behind heq
      cases before with
      | nil =>
          rcases List.cons.inj heq with ⟨rfl, rfl⟩
          rw [htext, String.toList_ofList]
          exact ⟨gap, rest, rfl, hstart, hstop, hsolid, hkind, .done hgap, hrest⟩
      | cons other before =>
          rcases List.cons.inj heq with ⟨rfl, htail⟩
          rcases ih before token behind htail with
            ⟨front, back, rfl, hplace, hend, hsolid', hkind', hfront, hback⟩
          refine ⟨gap ++ (text ++ front), back, by simp, ?_, hend, hsolid', hkind', ?_, hback⟩
          · simp only [byteLength_append]
            omega
          · exact .token hgap hsolid hkind htext hstart hstop hfront

/-- Every token stands somewhere in the text, with its text at its byte range. -/
theorem Tiles.exists_part {offset : Nat} {cs : List Char} {tokens : List Token}
    (h : Tiles offset cs tokens) : ∀ token ∈ tokens, ∃ before text behind,
      cs = before ++ text ++ behind ∧ SolidText text ∧ token.kind ≠ .whitespace ∧
        token.text = String.ofList text ∧ token.start = offset + byteLength before ∧
        token.stop = token.start + byteLength text := by
  intro token hmem
  rcases List.append_of_mem hmem with ⟨before, behind, htokens⟩
  rcases h.around before token behind htokens with
    ⟨front, back, rfl, hstart, hstop, hsolid, hkind, _, _⟩
  exact ⟨front, token.text.toList, back, by simp, hsolid, hkind, String.ofList_toList.symm, hstart, hstop⟩

/-- A token of a tiled source lies on character boundaries, and its text is the slice there. -/
theorem Tiles.mem_slice {source : String} {tokens : List Token}
    (h : Tiles 0 source.toList tokens) {token : Token} (hmem : token ∈ tokens) :
    OnBoundary source token.start ∧ OnBoundary source token.stop ∧
      token.text = slice source token.start token.stop ∧ SolidText token.text.toList := by
  obtain ⟨before, text, behind, hsource, hsolid, _, htext, hstart, hstop⟩ := h.exists_part token hmem
  rw [Nat.zero_add] at hstart
  refine ⟨⟨before, text ++ behind, by simp [hsource], hstart.symm⟩,
    ⟨before ++ text, behind, hsource, ?_⟩, ?_, ?_⟩
  · rw [byteLength_append, hstop, hstart]
  · rw [hstop, hstart, slice_eq hsource, htext]
  · rwa [htext, String.toList_ofList]

/-! ### Gaps -/

/-- The texts in front of, between and behind tokens, from byte `offset` of the source on. -/
def gapsFrom (source : String) (offset : Nat) : List Token → List String
  | [] => [slice source offset source.utf8ByteSize]
  | token :: tokens => slice source offset token.start :: gapsFrom source token.stop tokens

/-- Texts of gaps and of tokens in turn, a gap first; there is one gap more than tokens. -/
def interleave : List String → List Token → String
  | gap :: gaps, token :: tokens => gap ++ token.text ++ interleave gaps tokens
  | gaps, _ => String.join gaps

theorem length_gapsFrom (source : String) (offset : Nat) (tokens : List Token) :
    (gapsFrom source offset tokens).length = tokens.length + 1 := by
  induction tokens generalizing offset with
  | nil => rfl
  | cons token tokens ih => rw [gapsFrom, List.length_cons, ih, List.length_cons]

/-- The gaps of a tiling are blank, and with the tokens between them they are the text. -/
theorem Tiles.gaps_interleave {offset : Nat} {cs : List Char} {tokens : List Token}
    (h : Tiles offset cs tokens) (source : String) : ∀ before, source.toList = before ++ cs →
      byteLength before = offset →
      (∀ gap ∈ gapsFrom source offset tokens, allBlank gap = true) ∧
        interleave (gapsFrom source offset tokens) tokens = String.ofList cs := by
  induction h with
  | @done offset gap hgap =>
      intro before hsource hbefore
      have hparts : source.toList = before ++ gap ++ [] := by rw [hsource, List.append_nil]
      have hslice : slice source offset source.utf8ByteSize = String.ofList gap := by
        rw [utf8ByteSize_eq, hsource, byteLength_append, ← hbefore]
        exact slice_eq hparts
      rw [gapsFrom, hslice]
      exact ⟨by simpa [allBlank] using hgap, by simp [interleave, String.join]⟩
  | @token offset gap text rest token tokens hgap _ _ htext hstart hstop _ ih =>
      intro before hsource hbefore
      have hslice : slice source offset token.start = String.ofList gap := by
        rw [hstart, ← hbefore]
        exact slice_eq (by rw [hsource, List.append_assoc])
      obtain ⟨hblank, hjoined⟩ := ih (before ++ gap ++ text) (by simp [hsource])
        (by simp only [byteLength_append]; omega)
      refine ⟨?_, ?_⟩
      · intro other hmem
        rcases List.mem_cons.1 hmem with rfl | hmem
        · rw [hslice]
          simpa [allBlank] using hgap
        · exact hblank other hmem
      · rw [gapsFrom, interleave, hjoined, hslice, htext, String.ofList_append, String.ofList_append,
          String.append_assoc]

end PassageMarkup
