/-
Module: PassageMarkup.Proofs.ListingLines
Layer: Proofs
Purpose: A listing of tokens can be read back. Each of its parts is written so that its end can be told
  whatever follows: a name or a number by the character behind it, a quoted text by the quote that no escape
  can bring about. So a line ends where its token does, and no text of a token can pass for the end of a line
  or for a byte range. Quoting leaves no line feed in a text, hence there is one line feed to a token.
Imports: Proofs.Numerals, Proofs.TreeShape, Report.Process
Main exports: SelfDelimiting, SelfDelimiting.append_inj, selfDelimiting_closed, selfDelimiting_quoteChar,
  selfDelimiting_listingLine, lineFeeds_listing, listing_one_line_each
-/
import PassageMarkup.Proofs.Numerals
import PassageMarkup.Proofs.TreeShape
import PassageMarkup.Report.Process

namespace PassageMarkup

open Text Number

/-! ### Self-delimiting writing -/

/-- A way of writing values such that the end of what is written can be told, whatever follows. -/
def SelfDelimiting {α : Type} (write : α → List Char) : Prop :=
  ∀ {a b : α} {rest rest' : List Char}, write a ++ rest = write b ++ rest' → a = b ∧ rest = rest'

section SelfDelimiting

variable {α : Type} {write : α → List Char}

/-- A character that occurs in nothing that is written ends it. -/
theorem selfDelimiting_closed {closing : Char} (hinj : Function.Injective write)
    (hclosing : ∀ a, closing ∉ write a) : SelfDelimiting fun a => write a ++ [closing] := by
  intro a b rest rest' h
  simp only [List.append_assoc, List.singleton_append] at h
  rcases eq_of_first (hclosing a) (hclosing b) h with ⟨hwrite, hrest⟩
  exact ⟨hinj hwrite, hrest⟩

/-- Values written one after another are told apart from what follows, if that does not go on with another
value. -/
theorem SelfDelimiting.append_inj (hwrite : SelfDelimiting write) {values others : List α}
    {tail tail' : List Char} (htail : ∀ a rest, tail ≠ write a ++ rest)
    (htail' : ∀ a rest, tail' ≠ write a ++ rest)
    (h : values.flatMap write ++ tail = others.flatMap write ++ tail') : values = others ∧ tail = tail' := by
  induction values generalizing others with
  | nil =>
      cases others with
      | nil => exact ⟨rfl, h⟩
      | cons b others =>
          rw [List.flatMap_cons, List.append_assoc] at h
          exact absurd h (htail b _)
  | cons a values ih =>
      rw [List.flatMap_cons, List.append_assoc] at h
      cases others with
      | nil => exact absurd h.symm (htail' a _)
      | cons b others =>
          rw [List.flatMap_cons, List.append_assoc] at h
          rcases hwrite h with ⟨rfl, hbehind⟩
          rcases ih hbehind with ⟨rfl, htails⟩
          exact ⟨rfl, htails⟩

end SelfDelimiting

/-! ### Numbers -/

theorem digitChar_injOn : ∀ m < 16, ∀ n < 16, Nat.digitChar m = Nat.digitChar n → m = n := by
  decide

/-- The digits of a code point tell it. -/
theorem hexDigits_injective : Function.Injective hexDigits := by
  intro m n h
  induction m using Nat.strong_induction_on generalizing n with
  | h m ih =>
      have hlast (k : Nat) : k % 16 < 16 := Nat.mod_lt k (by decide)
      rw [hexDigits, hexDigits, Nat.toDigits_eq_if (by decide), Nat.toDigits_eq_if (n := n) (by decide)] at h
      split at h
      · next hm =>
        split at h
        · next hn => exact digitChar_injOn m hm n hn (List.cons.inj h).1
        · exact absurd (List.append_eq_singleton_iff.1 h.symm) (by simp)
      · next hm =>
        split at h
        · exact absurd (List.append_eq_singleton_iff.1 h) (by simp)
        · next hn =>
          rcases List.append_inj' h rfl with ⟨hfront, hdigit⟩
          have hquotient : m / 16 = n / 16 := ih (m / 16) (by omega) hfront
          have hrest : m % 16 = n % 16 := digitChar_injOn _ (hlast m) _ (hlast n) (List.cons.inj hdigit).1
          omega

theorem exists_digit_of_mem_hexDigits {c : Char} {n : Nat} (h : c ∈ hexDigits n) :
    ∃ d < 16, c = Nat.digitChar d := by
  induction n using Nat.strong_induction_on with
  | h n ih =>
      rw [hexDigits, Nat.toDigits_eq_if (by decide)] at h
      split at h
      · next hn => exact ⟨n, hn, List.mem_singleton.1 h⟩
      · next hn =>
        rcases List.mem_append.1 h with hfront | hlast
        · exact ih (n / 16) (by omega) hfront
        · exact ⟨n % 16, Nat.mod_lt n (by decide), List.mem_singleton.1 hlast⟩

/-- A whole number, ended by a character that is no digit. -/
theorem selfDelimiting_toString (closing : Char) (hclosing : isAsciiDigit closing = false) :
    SelfDelimiting fun n : Nat => (toString n).toList ++ [closing] := by
  have hdigits (n : Nat) : (toString n).toList = Nat.toDigits 10 n := Nat.toList_repr
  apply selfDelimiting_closed
  · intro m n h
    simp only [hdigits] at h
    rw [← digitsValue_toDigits m, h, digitsValue_toDigits]
  · intro n hmem
    rw [hdigits] at hmem
    rw [isAsciiDigit_of_mem_toDigits hmem] at hclosing
    cases hclosing

/-! ### Quoted texts -/

/-- The characters that are written as a backslash and a letter. -/
def shortEscapes : List (Char × Char) :=
  [('"', '"'), ('\\', '\\'), ('\n', 'n'), ('\r', 'r'), ('\t', 't'), (Char.ofNat 0, '0')]

/-- How a character is written inside a quoted text. -/
inductive Quotes : Char → List Char → Prop where
  | plain {c : Char} (hquote : c ≠ '"') (hescape : c ≠ '\\') (hfeed : c ≠ '\n') : Quotes c [c]
  | short {c letter : Char} (hmem : (c, letter) ∈ shortEscapes) : Quotes c ['\\', letter]
  | codePoint {c : Char} : Quotes c ('\\' :: 'u' :: '\x7b' :: (hexDigits c.toNat ++ ['\x7d']))

theorem quotes_quoteChar (c : Char) : Quotes c (quoteChar c) := by
  by_cases h : ∃ escape ∈ shortEscapes, c = escape.1
  · rcases h with ⟨⟨_, letter⟩, hmem, rfl⟩
    have hwritten : ∀ escape ∈ shortEscapes, quoteChar escape.1 = ['\\', escape.2] := by decide
    rw [hwritten _ hmem]
    exact .short hmem
  · have hne : c ≠ '"' ∧ c ≠ '\\' ∧ c ≠ '\n' ∧ c ≠ '\r' ∧ c ≠ '\t' ∧ c ≠ Char.ofNat 0 := by
      simpa [shortEscapes] using h
    unfold quoteChar
    simp only [hne, if_false]
    split
    · exact .plain hne.1 hne.2.1 hne.2.2.1
    · exact .codePoint

theorem shortEscapes_letters : ∀ escape ∈ shortEscapes, escape.2 ≠ 'u' ∧ escape.2 ≠ '\n' := by
  decide

theorem shortEscapes_inj : ∀ escape ∈ shortEscapes, ∀ other ∈ shortEscapes,
    escape.2 = other.2 → escape.1 = other.1 := by
  decide

theorem selfDelimiting_codePoint : SelfDelimiting fun c : Char => hexDigits c.toNat ++ ['\x7d'] := by
  have hbrace : ∀ d < 16, '\x7d' ≠ Nat.digitChar d := by decide
  apply selfDelimiting_closed
  · exact fun c d h => Char.toNat_inj.1 (hexDigits_injective h)
  · intro c hmem
    rcases exists_digit_of_mem_hexDigits hmem with ⟨d, hd, hdigit⟩
    exact hbrace d hd hdigit

/-- The characters written for one character tell it, and where they end. -/
theorem selfDelimiting_quoteChar : SelfDelimiting quoteChar := by
  intro c d rest rest' h
  have hc := quotes_quoteChar c
  have hd := quotes_quoteChar d
  generalize quoteChar c = first at h hc
  generalize quoteChar d = second at h hd
  cases hc with
  | plain hquote hescape hfeed =>
      cases hd with
      | plain => exact List.cons.inj h
      | short | codePoint => exact absurd (List.cons.inj h).1 hescape
  | short hmem =>
      cases hd with
      | plain _ hescape' _ => exact absurd (List.cons.inj h).1.symm hescape'
      | short hmem' =>
          rcases List.cons.inj (List.cons.inj h).2 with ⟨hletter, hrest⟩
          exact ⟨shortEscapes_inj _ hmem _ hmem' hletter, hrest⟩
      | codePoint =>
          have hletter := (List.cons.inj (List.cons.inj h).2).1
          exact absurd hletter (shortEscapes_letters _ hmem).1
  | codePoint =>
      cases hd with
      | plain _ hescape' _ => exact absurd (List.cons.inj h).1.symm hescape'
      | short hmem' =>
          have hletter := (List.cons.inj (List.cons.inj h).2).1
          exact absurd hletter.symm (shortEscapes_letters _ hmem').1
      | codePoint => exact selfDelimiting_codePoint (List.cons.inj (List.cons.inj (List.cons.inj h).2).2).2

/-- A quote inside a text is written with a backslash, so the next quote ends it. -/
theorem selfDelimiting_quoted :
    SelfDelimiting fun text : String => text.toList.flatMap quoteChar ++ ['"'] := by
  have hends (tail : List Char) (c : Char) (rest : List Char) : '"' :: tail ≠ quoteChar c ++ rest := by
    have hc := quotes_quoteChar c
    generalize quoteChar c = first at hc
    intro h
    cases hc with
    | plain hquote => exact hquote (List.cons.inj h).1.symm
    | short | codePoint => exact absurd (List.cons.inj h).1 (by decide)
  intro text other rest rest' h
  simp only [List.append_assoc, List.singleton_append] at h
  rcases selfDelimiting_quoteChar.append_inj (hends rest) (hends rest') h with ⟨htext, hrest⟩
  exact ⟨String.toList_inj.1 htext, (List.cons.inj hrest).2⟩

/-- Quoting leaves no line feed. -/
theorem oneLine_quote (text : String) : OneLine (quote text) := by
  have hdigit : ∀ d < 16, '\n' ≠ Nat.digitChar d := by decide
  have hchar : ∀ c, '\n' ∉ quoteChar c := by
    intro c hmem
    have hc := quotes_quoteChar c
    generalize quoteChar c = written at hmem hc
    cases hc with
    | plain _ _ hfeed => exact hfeed (List.mem_singleton.1 hmem).symm
    | short hescape =>
        have hletter := (shortEscapes_letters _ hescape).2
        simp [hletter.symm] at hmem
    | codePoint =>
        have hhex : '\n' ∈ hexDigits c.toNat := by simpa using hmem
        rcases exists_digit_of_mem_hexDigits hhex with ⟨d, hd, hfeed⟩
        exact hdigit d hd hfeed
  simp [OneLine, quote, hchar]

/-! ### Lines -/

theorem Kind.name_plain (kind : Kind) : '>' ∉ kind.name.toList ∧ OneLine kind.name := by
  have hall : ∀ kind ∈ Kind.all, '>' ∉ kind.name.toList ∧ OneLine kind.name := by decide
  exact hall kind kind.mem_all

theorem Kind.name_injective : Function.Injective Kind.name := by
  have hall : ∀ kind ∈ Kind.all, ∀ other ∈ Kind.all, kind.name = other.name → kind = other := by decide
  intro kind other h
  exact hall kind kind.mem_all other other.mem_all h

theorem selfDelimiting_name : SelfDelimiting fun kind : Kind => kind.name.toList ++ ['>'] := by
  apply selfDelimiting_closed
  · exact fun kind other h => Kind.name_injective (String.toList_inj.1 h)
  · exact fun kind => kind.name_plain.1

/-- The parts of a line, each with the character that ends it, in front of what follows. -/
theorem listingLine_append (token : Token) (rest : List Char) :
    token.listingLine.toList ++ rest =
      '<' :: ((token.kind.name.toList ++ ['>']) ++ ' ' :: '"' ::
        ((token.text.toList.flatMap quoteChar ++ ['"']) ++ ' ' ::
          (((toString token.start).toList ++ ['.']) ++ '.' ::
            (((toString token.stop).toList ++ ['\n']) ++ rest)))) := by
  simp [Token.listingLine, Kind.display, quote]

/-- The line of a token tells the token, and where the line ends. -/
theorem selfDelimiting_listingLine : SelfDelimiting fun token : Token => token.listingLine.toList := by
  rintro ⟨kind, text, start, stop⟩ ⟨kind', text', start', stop'⟩ rest rest' h
  simp only [listingLine_append] at h
  rcases selfDelimiting_name (List.cons.inj h).2 with ⟨rfl, hbehindKind⟩
  rcases selfDelimiting_quoted (List.cons.inj (List.cons.inj hbehindKind).2).2 with ⟨rfl, hbehindText⟩
  rcases selfDelimiting_toString '.' rfl (List.cons.inj hbehindText).2 with ⟨rfl, hbehindStart⟩
  rcases selfDelimiting_toString '\n' rfl (List.cons.inj hbehindStart).2 with ⟨rfl, hrest⟩
  exact ⟨rfl, hrest⟩

theorem toList_listing (tokens : List Token) :
    (listing tokens).toList = tokens.flatMap fun token => token.listingLine.toList := by
  simp [listing, String.toList_join, List.flatMap_map]

/-- Tokens with the same listing are the same. -/
theorem listing_injective : Function.Injective listing := by
  intro tokens others h
  have hends (token : Token) (rest : List Char) : [] ≠ token.listingLine.toList ++ rest := by
    simp [listingLine_append]
  have hlines := congrArg String.toList h
  rw [toList_listing, toList_listing, ← List.append_nil (tokens.flatMap _),
    ← List.append_nil (others.flatMap _)] at hlines
  exact (selfDelimiting_listingLine.append_inj hends hends hlines).1

theorem lineFeeds_toString (n : Nat) : lineFeeds (toString n) = 0 := by
  rw [lineFeeds_eq_zero_iff]
  intro hmem
  have hdigit : '\n' ∈ Nat.toDigits 10 n := by simpa [Nat.toList_repr] using hmem
  exact absurd (isAsciiDigit_of_mem_toDigits hdigit) (by decide)

/-- The line of a token has the line feed at its end, and no other. -/
theorem lineFeeds_listingLine (token : Token) : lineFeeds token.listingLine = 1 := by
  have hname : lineFeeds token.kind.name = 0 := lineFeeds_eq_zero_iff.2 token.kind.name_plain.2
  have htext : lineFeeds (quote token.text) = 0 := lineFeeds_eq_zero_iff.2 (oneLine_quote token.text)
  have hsigns : lineFeeds "<" = 0 ∧ lineFeeds ">" = 0 ∧ lineFeeds " " = 0 ∧ lineFeeds ".." = 0 ∧
      lineFeeds "\n" = 1 := by decide
  simp only [Token.listingLine, Kind.display, lineFeeds_append, hname, htext, hsigns, lineFeeds_toString]

theorem lineFeeds_listing (tokens : List Token) : lineFeeds (listing tokens) = tokens.length := by
  induction tokens with
  | nil => rfl
  | cons token tokens ih =>
      have hcons : listing (token :: tokens) = token.listingLine ++ listing tokens := by
        simp [listing, String.join_cons]
      rw [hcons, lineFeeds_append, lineFeeds_listingLine, ih, List.length_cons, Nat.add_comm]

/-- Tokens can be listed, whatever they are: the listing has one line feed to a token, and it is the listing
of no other tokens. The writers of other formats have no part in it. -/
theorem listing_one_line_each (writers : Writers) (tokens : List Token) :
    ∃ text, formatTokens writers tokens .simple = .ok text ∧ lineFeeds text = tokens.length ∧
      ∀ others, formatTokens writers others .simple = .ok text ↔ others = tokens := by
  refine ⟨listing tokens, rfl, lineFeeds_listing tokens, ?_⟩
  intro others
  simp only [formatTokens, Except.ok.injEq, listing_injective.eq_iff]

end PassageMarkup
