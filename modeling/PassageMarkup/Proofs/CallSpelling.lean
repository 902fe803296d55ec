/-
Module: PassageMarkup.Proofs.CallSpelling
Layer: Proofs
Purpose: How a call is spelled in its passage. Resolving bracket runs touches brackets only, so the head
  of a call and its closing parenthesis are as they were scanned: a parenthesis, the name and a colon at
  one end, a parenthesis at the other. The text of a call is the part of the passage between these ends,
  and the head starts at the byte where its parenthesis stands.
Imports: Proofs.ReaderSound, Proofs.Resolution
Main exports: mem_scan_of_mem_tokensOf, callHead_take, CallText.head_name, Tiles.behind,
  CallText.SpelledAt, CallText.spelledAt
-/
import PassageMarkup.Proofs.ReaderSound
import PassageMarkup.Proofs.Resolution

namespace PassageMarkup

open Text Recognise

/-! ### Tokens that are no brackets -/

/-- Resolving bracket runs makes brackets only: any other resolved token was scanned. -/
theorem mem_scan_of_mem_tokensOf {source : String} {token : Token} (hmem : token ∈ tokensOf source)
    (hkind : token.kind.isBracket = false) : token ∈ scan source := by
  have hplain : token ∈ (tokensOf source).filter fun other => !other.kind.isBracket :=
    List.mem_filter.2 ⟨hmem, by simp [hkind]⟩
  rw [tokensOf, resolveBrackets, (resolved_resolveFrom [] (scan source)).filter_plain] at hplain
  exact (List.mem_filter.1 hplain).1

/-- A character of the name of a call: neither a parenthesis nor a colon. -/
theorem ne_mark_of_isName {c : Char} (h : (isNameRest c || c == '-') = true) : c ≠ '(' ∧ c ≠ ':' := by
  constructor <;> rintro rfl <;> exact absurd h (by decide)

/-- What is read as the head of a call is a parenthesis, a name and a colon. -/
theorem callHead_take {cs : List Char} {n : Nat} (h : callHead cs = some n) :
    ∃ name, cs.take n = '(' :: (name ++ [':']) ∧ ∀ c ∈ name, c ≠ '(' ∧ c ≠ ':' := by
  rcases followedBy_eq_some.1 h with ⟨a, b, hname, hcolon, rfl⟩
  rcases nameAfter_eq_some.1 hname with ⟨c, rest, rfl, hstart, rfl⟩
  rcases exactly_eq_some.1 hcolon with ⟨hpre, rfl⟩
  rw [List.take_add, take_name, take_of_prefix_self hpre]
  refine ⟨c :: rest.takeWhile fun d => isNameRest d || d == '-', rfl, ?_⟩
  intro d hmem
  apply ne_mark_of_isName
  rcases List.mem_cons.1 hmem with rfl | hmem
  · rw [isNameRest_of_isNameStart hstart, Bool.true_or]
  · exact List.all_eq_true.1 List.all_takeWhile d hmem

/-- The head of a call is a parenthesis, the name of the call and a colon. -/
theorem CallText.head_name {source : String} {call : CallText} (hmem : call.head ∈ tokensOf source)
    (hkind : call.head.kind = .callHead) :
    call.head.text.toList = '(' :: (call.name.toList ++ [':']) ∧
      ∀ c ∈ call.name.toList, c ≠ '(' ∧ c ≠ ':' := by
  have hscan : call.head ∈ scan source := mem_scan_of_mem_tokensOf hmem (by rw [hkind]; rfl)
  rcases (lexes_scan source).exists_leading call.head hscan with ⟨rest, hleading⟩
  rw [hkind] at hleading
  rcases callHead_take (recognise_of_leading hleading) with ⟨name, htake, hname⟩
  rw [List.take_left] at htake
  have hsame : call.name.toList = name := by simp [CallText.name, htake]
  rw [hsame]
  exact ⟨htake, hname⟩

theorem CallText.head_text {source : String} {call : CallText} (hmem : call.head ∈ tokensOf source)
    (hkind : call.head.kind = .callHead) :
    call.head.text.toList = '(' :: (call.name.toList ++ [':']) :=
  (head_name hmem hkind).1

/-- The closing parenthesis of a call is just that. -/
theorem closeParen_text {source : String} {token : Token} (hmem : token ∈ tokensOf source)
    (hkind : token.kind = .closeParen) : token.text.toList = [')'] := by
  have hscan : token ∈ scan source := mem_scan_of_mem_tokensOf hmem (by rw [hkind]; rfl)
  rcases (lexes_scan source).exists_leading token hscan with ⟨rest, hleading⟩
  rw [hkind] at hleading
  exact text_of_exactly rfl hleading

/-! ### The text of a call -/

/-- The tokens behind some others tile what is left of the text behind these. -/
theorem Tiles.behind {offset : Nat} {cs : List Char} {tokens : List Token}
    (h : Tiles offset cs tokens) : ∀ first second, tokens = first ++ second →
      ∃ front back, cs = front ++ back ∧ Tiles (offset + byteLength front) back second := by
  induction h with
  | @done offset gap hgap =>
      intro first second heq
      rcases List.append_eq_nil_iff.1 heq.symm with ⟨rfl, rfl⟩
      exact ⟨[], gap, rfl, .done hgap⟩
  | @token offset gap text rest token tokens hgap hsolid hkind htext hstart hstop hrest ih =>
      intro first second heq
      cases first with
      | nil =>
          cases heq
          exact ⟨[], _, rfl, .token hgap hsolid hkind htext hstart hstop hrest⟩
      | cons other first =>
          rcases List.cons.inj heq with ⟨_, htail⟩
          rcases ih first second htail with ⟨front, back, rfl, htiles⟩
          refine ⟨gap ++ (text ++ front), back, by simp, ?_⟩
          have hoffset : offset + byteLength (gap ++ (text ++ front)) =
              token.stop + byteLength front := by
            simp only [byteLength_append]
            omega
          rwa [hoffset]

/-- A call as it stands in a passage: at the byte where its head starts there is a parenthesis, the name
and a colon, and the text of the call goes on from there to a closing parenthesis. -/
def CallText.SpelledAt (source : String) (call : CallText) : Prop :=
  ∃ before inside behind,
    source.toList = before ++ (call.raw source).toList ++ behind ∧
      byteLength before = call.head.start ∧
      (call.raw source).toList = '(' :: (call.name.toList ++ ':' :: (inside ++ [')']))

/-- A call among the resolved tokens of a passage is spelled in full where its head starts. -/
theorem CallText.spelledAt {source : String} {call : CallText} (hfits : call.Fits)
    (hpart : call.yield <:+: tokensOf source) : call.SpelledAt source := by
  rcases hfits with ⟨hhead, _, hclosing⟩
  rcases hpart with ⟨before, behind, htokens⟩
  have hheadMem : call.head ∈ tokensOf source := by
    rw [← htokens]
    simp [CallText.yield]
  have hclosingMem : call.closing ∈ tokensOf source := by
    rw [← htokens]
    simp [CallText.yield]
  have hparts : tokensOf source = before ++ (call.head :: (call.body ++ call.closing :: behind)) := by
    rw [← htokens]
    simp [CallText.yield]
  rcases (tiles_tokensOf source).behind _ _ hparts with ⟨front, back, hsource, hback⟩
  cases hback with
  | @token _ gap text rest _ _ _ _ _ htext hstart hstop hrest =>
      rcases hrest.behind _ _ rfl with ⟨inner, more, rfl, hmore⟩
      cases hmore with
      | @token _ space paren last _ _ _ _ _ hparen hstart' hstop' _ =>
          have hname : text = '(' :: (call.name.toList ++ [':']) := by
            rw [← head_text hheadMem hhead, htext, String.toList_ofList]
          have hend : paren = [')'] := by
            rw [← closeParen_text hclosingMem hclosing, hparen, String.toList_ofList]
          have hcut : source.toList =
              (front ++ gap) ++ (text ++ (inner ++ (space ++ paren))) ++ last := by
            simp [hsource]
          have hbefore : byteLength (front ++ gap) = call.head.start := by
            rw [byteLength_append]
            omega
          have hraw : call.raw source = String.ofList (text ++ (inner ++ (space ++ paren))) := by
            have hlength : call.closing.stop =
                byteLength (front ++ gap) + byteLength (text ++ (inner ++ (space ++ paren))) := by
              simp only [byteLength_append]
              omega
            rw [CallText.raw, ← hbefore, hlength]
            exact slice_eq hcut
          refine ⟨front ++ gap, inner ++ space, last, ?_, hbefore, ?_⟩
          · rw [hraw, String.toList_ofList]
            exact hcut
          · rw [hraw, String.toList_ofList, hname, hend]
            simp

end PassageMarkup
