/-
Module: PassageMarkup.Proofs.ReservedWords
Layer: Proofs
Purpose: Reserved words stand alone. A reserved word asks for a word boundary behind it; nothing asks for one
  in front of it, but a token that ends in a word character takes every character of a name that follows,
  the name of a variable included. So behind a word character no token starts with a letter or digit of
  ASCII, as all reserved words do, and a reserved word is never a part of a longer word.
Imports: Mathlib.Data.List.Basic, Proofs.Alphabets, Proofs.Lexing
Main exports: IsWholeWord, WholeWord, Token.isReserved, Token.isWholeWord_of_isReserved,
  Kind.not_isNameRest_behind, NameEnds, Lexes.standsAlone, reserved_words_stand_alone
-/
import Mathlib.Data.List.Basic
import PassageMarkup.Proofs.Alphabets
import PassageMarkup.Proofs.Lexing

namespace PassageMarkup

open Text Recognise

/-! ### Recognisers of whole words -/

namespace Recognise

/-- A word at the front of a text: its first character is one of ASCII names, and behind it is a word
boundary. -/
structure IsWholeWord (cs : List Char) (n : Nat) : Prop where
  head : ∃ c, cs.head? = some c ∧ isNameRest c = true
  boundary : atBoundary (cs.drop n) = true

/-- A recogniser of whole words. -/
def WholeWord (read : List Char → Option Nat) : Prop :=
  ∀ cs n, read cs = some n → IsWholeWord cs n

/-- A fixed spelling starts with its first character. -/
theorem head_of_spelling {word cs : List Char} (hword : word.head?.any isNameRest = true) (h : word <+: cs) :
    ∃ c, cs.head? = some c ∧ isNameRest c = true := by
  rcases h with ⟨rest, rfl⟩
  cases word with
  | nil => cases hword
  | cons c word => exact ⟨c, rfl, hword⟩

theorem wholeWord_reserved {word : List Char} (hword : word.head?.any isNameRest = true) :
    WholeWord (reserved word) := by
  intro cs n h
  rcases reserved_eq_some.1 h with ⟨hspelling, hboundary, rfl⟩
  exact ⟨head_of_spelling hword hspelling, hboundary⟩

/-- A word, blanks, and a whole word. -/
theorem WholeWord.after {word : List Char} {rest : List Char → Option Nat} (h : WholeWord rest)
    (hword : word.head?.any isNameRest = true) :
    WholeWord (followedBy (exactly word) (followedBy (run isBlank) rest)) := by
  intro cs n hread
  rcases followedBy_eq_some.1 hread with ⟨a, b, hfirst, hmore, rfl⟩
  rcases followedBy_eq_some.1 hmore with ⟨gap, last, _, hlast, rfl⟩
  have hboundary := (h _ _ hlast).boundary
  rw [List.drop_drop, List.drop_drop] at hboundary
  exact ⟨head_of_spelling hword (exactly_eq_some.1 hfirst).1, hboundary⟩

theorem wholeWord_firstOf {choices : List (List Char → Option Nat)}
    (h : ∀ choice ∈ choices, WholeWord choice) : WholeWord (firstOf choices) := by
  intro cs n hread
  rcases List.exists_of_findSome?_eq_some hread with ⟨choice, hmem, hchoice⟩
  exact h choice hmem cs n hchoice

end Recognise

/-! ### Reserved words -/

/-- Whether a token is a reserved word: a keyword, a truth value, a connective, a binding word, a comparison
in words, or one of the words for a property. -/
def Token.isReserved (token : Token) : Bool :=
  match token.kind with
  | .keyword | .boolean | .logical | .binding => true
  | .comparison => token.text.toList.head?.any isWord
  | .property => token.text == "its" || token.text == "of"
  | _ => false

/-- A comparison that starts with a word character is a whole word. -/
theorem isWholeWord_of_comparison {cs : List Char} {n : Nat} (h : comparison cs = some n)
    (hword : cs.head?.any isWord = true) : IsWholeWord cs n := by
  rcases List.exists_of_findSome?_eq_some h with ⟨choice, hmem, hchoice⟩
  have hsign : ∀ {c : Char} {spelling : List Char}, isWord c = false →
      exactly (c :: spelling) cs = some n → False := by
    intro c spelling hc hread
    rcases (exactly_eq_some.1 hread).1 with ⟨rest, rfl⟩
    have hfirst : isWord c = true := hword
    rw [hc] at hfirst
    cases hfirst
  simp only [List.mem_cons, List.not_mem_nil, or_false] at hmem
  rcases hmem with rfl | rfl | rfl | rfl | rfl | rfl | rfl | rfl
  · exact (hsign (by decide) hchoice).elim
  · exact (hsign (by decide) hchoice).elim
  · exact (hsign (by decide) hchoice).elim
  · exact (hsign (by decide) hchoice).elim
  · exact (wholeWord_reserved (by decide)).after (by decide) cs n hchoice
  · exact wholeWord_reserved (by decide) cs n hchoice
  · exact wholeWord_reserved (by decide) cs n hchoice
  · exact ((wholeWord_reserved (by decide)).after (by decide)).after (by decide) cs n hchoice

/-- A word for a property, unlike the sign for one, is a whole word. -/
theorem isWholeWord_of_property {cs : List Char} {n : Nat} (h : Kind.property.recognise cs = some n)
    (hword : cs.take n ≠ ['\x27', 's']) : IsWholeWord cs n := by
  rcases List.exists_of_findSome?_eq_some h with ⟨choice, hmem, hchoice⟩
  simp only [List.mem_cons, List.not_mem_nil, or_false] at hmem
  rcases hmem with rfl | rfl | rfl
  · rcases reserved_eq_some.1 hchoice with ⟨hsign, _, rfl⟩
    exact absurd (take_of_prefix_self hsign) hword
  · exact wholeWord_reserved (by decide) cs n hchoice
  · exact wholeWord_reserved (by decide) cs n hchoice

/-- A reserved word starts with a character of ASCII names and ends at a word boundary. -/
theorem Token.isWholeWord_of_isReserved {token : Token} {rest : List Char} (h : token.isReserved = true)
    (hread : token.kind.recognise (token.text.toList ++ rest) = some token.text.toList.length) :
    IsWholeWord (token.text.toList ++ rest) token.text.toList.length := by
  have hne : token.text.toList ≠ [] := List.length_pos_iff.1 (token.kind.stable.pos hread)
  unfold isReserved at h
  cases hkind : token.kind with
  | keyword =>
      rw [hkind] at hread
      have hword : WholeWord (reserved ['t', 'o']) := wholeWord_reserved (by decide)
      exact hword _ _ hread
  | boolean | logical | binding =>
      rw [hkind] at hread
      refine wholeWord_firstOf ?_ _ _ hread
      simp (disch := decide) [wholeWord_reserved]
  | comparison =>
      rw [hkind] at hread h
      apply isWholeWord_of_comparison hread
      rwa [List.head?_append_of_ne_nil _ hne]
  | property =>
      rw [hkind] at hread h
      apply isWholeWord_of_property hread
      rw [List.take_left]
      intro hsign
      have htext : token.text = "'s" := by rw [← String.ofList_toList (s := token.text), hsign]
      rw [htext] at h
      exact absurd h (by decide)
  | _ =>
      rw [hkind] at h
      cases h

/-! ### What stands in front -/

/-- Behind a token that ends in a word character no character of a name follows. -/
theorem Kind.not_isNameRest_behind {kind : Kind} {cs : List Char} {n : Nat}
    (h : kind.recognise cs = some n) {last next : Char} (hlast : (cs.take n).getLast? = some last)
    (hnext : (cs.drop n).head? = some next) (hword : isWord last = true) : isNameRest next = false := by
  rw [Bool.eq_false_iff]
  intro hname
  -- the token does not end at a word boundary, so it holds the mark of a variable
  have hmark : '$' ∈ cs.take n :=
    kind.stable.clean h last next hlast hnext hword (isWord_of_isNameRest hname)
  have hholds : kind.alphabet '$' = true := kind.within.chars h '$' hmark
  cases kind with
  | «variable» =>
      rcases nameAfter_eq_some.1 h with ⟨c, rest, rfl, _, rfl⟩
      rw [Nat.add_comm, List.drop_succ_cons, List.drop_succ_cons] at hnext
      rcases List.head?_eq_some_iff.1 hnext with ⟨others, hothers⟩
      rw [not_accept_of_drop_runLength hothers] at hname
      cases hname
  | string =>
      rcases fixedToken_string.markEnd h with ⟨quote, hquote, hsign, _⟩
      rw [Option.some.inj (hlast.symm.trans hquote), hsign] at hword
      cases hword
  | text =>
      cases cs with
      | nil => cases h
      | cons c cs =>
          obtain rfl := Option.some.inj h
          split at hlast
          · next hends =>
            obtain rfl : c = last := by simpa using hlast
            rw [not_isWord_of_endsWord hends] at hword
            cases hword
          · next hends =>
            -- a word of plain text holds no mark
            rw [if_neg hends, Nat.add_comm, List.take_succ_cons, take_runLength] at hmark
            rcases List.mem_cons.1 hmark with rfl | hmem
            · exact hends (by decide)
            · exact absurd (List.all_eq_true.1 List.all_takeWhile _ hmem) (by decide)
  | _ => exact absurd hholds (by decide)

/-- A place where no name goes on: behind a word character there is no character of a name. -/
def NameEnds (before behind : List Char) : Prop :=
  ∀ {last next}, before.getLast? = some last → behind.head? = some next → isWord last = true →
    isNameRest next = false

/-- No name goes on behind a token. -/
theorem nameEnds_of_leading {kind : Kind} {text rest : List Char}
    (h : leading? (text ++ rest) = some (kind, text.length)) (before : List Char) :
    NameEnds (before ++ text) rest := by
  intro last next hlast hnext hword
  have hread := recognise_of_leading h
  have hne : text ≠ [] := List.length_pos_iff.1 (kind.stable.pos hread)
  rw [List.getLast?_append_of_ne_nil before hne] at hlast
  exact Kind.not_isNameRest_behind hread (by rwa [List.take_left]) (by rwa [List.drop_left]) hword

/-- A token with its characters at a place of a text, and no word character on either side of it. -/
def StandsAlone (before : List Char) (offset : Nat) (cs : List Char) (token : Token) : Prop :=
  ∃ front back, cs = front ++ (token.text.toList ++ back) ∧ token.start = offset + byteLength front ∧
    token.stop = token.start + byteLength token.text.toList ∧
    (∀ c, (before ++ front).getLast? = some c → isWord c = false) ∧
    ∀ c, back.head? = some c → isWord c = false

/-- What stands alone in a rest of a text stands alone in the text. -/
theorem StandsAlone.behind {before text cs : List Char} {offset : Nat} {token : Token}
    (h : StandsAlone (before ++ text) (offset + byteLength text) cs token) :
    StandsAlone before offset (text ++ cs) token := by
  rcases h with ⟨front, back, rfl, hstart, hstop, hbefore, hbehind⟩
  refine ⟨text ++ front, back, by simp, ?_, hstop, by simpa using hbefore, hbehind⟩
  rw [hstart, byteLength_append, Nat.add_assoc]

/-- The reserved words of a text stand alone, if no name goes on where the text starts. -/
theorem Lexes.standsAlone {offset : Nat} {cs : List Char} {tokens : List Token}
    (h : Lexes offset cs tokens) :
    ∀ before, NameEnds before cs → ∀ token ∈ tokens, token.isReserved = true →
      StandsAlone before offset cs token := by
  induction h with
  | nil => simp
  | blank hleading _ ih =>
      intro before _ token hmem hreserved
      exact (ih _ (nameEnds_of_leading hleading before) token hmem hreserved).behind
  | @token offset kind text rest tokens hleading _ _ ih =>
      intro before hends token hmem hreserved
      rcases List.mem_cons.1 hmem with rfl | hmem
      · have hread : kind.recognise ((String.ofList text).toList ++ rest) =
            some (String.ofList text).toList.length := by
          rw [String.toList_ofList]
          exact recognise_of_leading hleading
        rcases Token.isWholeWord_of_isReserved hreserved hread with ⟨⟨first, hfirst, hname⟩, hboundary⟩
        rw [List.drop_left] at hboundary
        rw [String.toList_ofList] at hfirst
        refine ⟨[], rest, by simp, rfl, by simp, ?_, ?_⟩
        · intro last hlast
          rw [List.append_nil] at hlast
          rw [Bool.eq_false_iff]
          intro hword
          rw [hends hlast hfirst hword] at hname
          cases hname
        · intro next hnext
          rcases List.head?_eq_some_iff.1 hnext with ⟨others, rfl⟩
          simpa [atBoundary] using hboundary
      · exact (ih _ (nameEnds_of_leading hleading before) token hmem hreserved).behind

/-- Reserved words are never cut out of longer words: in every passage the character right in front of a
reserved word and the one right behind it, where there are any, are no word characters. -/
theorem reserved_words_stand_alone (source : String) :
    ∃ tokens, tokenize source = .ok tokens ∧ ∀ token ∈ tokens, token.isReserved = true →
      ∃ before behind, source.toList = before ++ (token.text.toList ++ behind) ∧
        token.start = byteLength before ∧ token.stop = token.start + byteLength token.text.toList ∧
        (∀ c, before.getLast? = some c → isWord c = false) ∧
        ∀ c, behind.head? = some c → isWord c = false := by
  refine ⟨scan source, tokenize_eq source, ?_⟩
  intro token hmem hreserved
  have hends : NameEnds [] source.toList := by
    intro last next hlast
    cases hlast
  simpa [StandsAlone] using (lexes_scan source).standsAlone [] hends token hmem hreserved

/-- A variable that ends inside a word, a number in front of a point and two binding words, of which the
first is a part of a longer word. -/
theorem reserved_words_stand_alone_binding :
    ∃ tokens, tokenize "$aéto 1.2bind 2bind" = .ok tokens ∧
      ∃ token ∈ tokens, token.text = "2bind" ∧ token.start = 15 ∧ token.isReserved = true ∧
        ∃ before behind, "$aéto 1.2bind 2bind".toList = before ++ (token.text.toList ++ behind) ∧
          token.start = byteLength before ∧ token.stop = token.start + byteLength token.text.toList ∧
          (∀ c, before.getLast? = some c → isWord c = false) ∧
          ∀ c, behind.head? = some c → isWord c = false := by
  rcases reserved_words_stand_alone "$aéto 1.2bind 2bind" with ⟨tokens, htokens, halone⟩
  have hmem : ⟨.binding, "2bind", 15, 20⟩ ∈ tokens := by
    rw [tokenize_eq, Except.ok.injEq] at htokens
    rw [← htokens]
    decide +kernel
  exact ⟨tokens, htokens, _, hmem, rfl, rfl, rfl, halone _ hmem rfl⟩

end PassageMarkup
