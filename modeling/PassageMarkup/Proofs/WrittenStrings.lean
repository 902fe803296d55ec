/-
Module: PassageMarkup.Proofs.WrittenStrings
Layer: Proofs
Purpose: Strings written out. Every value can be written as a string, with a backslash in front of each of its
  quotes and backslashes; what is written is one token, and its literal is the value again. Conversely every
  string of a passage has characters between its two quotes that stand for its value, so no backslash is
  left without the character that it escapes.
Imports: Proofs.LabelReading, Proofs.StringSpelling
Main exports: writeString, leading?_writeString, literal?_writeString, scan_writeString, parse_print,
  standsFor_of_mem_scan, strings_read_back
-/
import PassageMarkup.Proofs.LabelReading
import PassageMarkup.Proofs.StringSpelling

namespace PassageMarkup

open Text Recognise

/-- A value written as a string. -/
def writeString (value : String) : String :=
  String.ofList ('"' :: (escape value.toList ++ ['"']))

theorem toList_writeString (value : String) :
    (writeString value).toList = '"' :: (escape value.toList ++ ['"']) :=
  String.toList_ofList

/-- A written string is a token, whatever follows. -/
theorem leading?_writeString (value : String) (rest : List Char) :
    leading? ((writeString value).toList ++ rest) = some (.string, (writeString value).toList.length) := by
  have hleading := leading?_string (standsFor_escape value.toList) rest
  simpa [toList_writeString] using hleading

/-- The literal of a written string is the value. -/
theorem literal?_writeString {token : Token} {value : String} (hkind : token.kind = .string)
    (htext : token.text = writeString value) : token.literal? = some (.string value) := by
  have hvalue := (standsFor_escape value.toList).unquote
  simp only [Token.literal?, hkind, htext, toList_writeString, hvalue, String.ofList_toList]

/-- A written string by itself is its only token. -/
theorem scan_writeString (value : String) : scan (writeString value) =
    [⟨.string, writeString value, 0, (writeString value).utf8ByteSize⟩] := by
  have hlexes : Lexes 0 ((writeString value).toList ++ []) _ :=
    .token (leading?_writeString value []) (by decide) .nil
  rw [List.append_nil] at hlexes
  rw [(scan?_of_lexes hlexes).2, String.ofList_toList, Nat.zero_add, utf8ByteSize_eq]

/-! ### A written string as an argument -/

/-- A token that is a literal by itself is a list of one argument. -/
theorem Arguments.ofTokens_single {token : Token} {value : Literal} (h : token.literal? = some value) :
    Arguments.ofTokens [token] = .list [.value value] :=
  ofTokens_list (.items (.one (.side (.bare (.single token value h)))))

/-- A written string that is printed is the only argument. -/
theorem parse_print (value : String) :
    parse .builtin ("(print: " ++ writeString value ++ ")") =
      .ok ⟨[.call ⟨"print", none, [.value (.string value)], .positional [.expression]⟩ none]⟩ := by
  have hstring : Spells ((writeString value).toList ++ [')'])
      [.word .string (writeString value), .word .closeParen ")"] := by
    have hword := Spells.word _ _ (by decide) (leading?_writeString value [')']) spells_closeParen
    rwa [String.ofList_toList] at hword
  have hopens : opens ((writeString value).toList ++ [')']) = true := by
    rw [toList_writeString]
    rfl
  have hhead : leading? ('(' :: ("print".toList ++ [':'])) = some (.callHead, "print".toList.length + 2) := by
    decide
  have hcall := (hstring.space hopens).callHead hhead rfl
  have hsource : ("(print: " ++ writeString value ++ ")").toList =
      '(' :: ("print".toList ++ ':' :: ' ' :: ((writeString value).toList ++ [')'])) := by
    simp
  rw [← hsource] at hcall
  have hread : Arguments.ofTokens [.word .string (writeString value)] = .list [.value (.string value)] :=
    Arguments.ofTokens_single (literal?_writeString rfl rfl)
  have hget : Catalog.builtin.get? "print" = some (.positional [.expression]) := by decide +kernel
  have hcheck : Catalog.builtin.check "print" (Arguments.ofTokens [.word .string (writeString value)]) =
      .ok (some (.positional [.expression])) := by
    rw [hread, Catalog.check, hget]
    rfl
  have hparse := parse_of_spells hcall (by simp [Token.word, Kind.isInner, Kind.isBracket]) hcheck
  rwa [hread] at hparse

/-! ### Strings of a passage -/

/-- A string of a passage has two quotes, and what is between them stands for its value. -/
theorem standsFor_of_mem_scan {source : String} {token : Token} (hmem : token ∈ scan source)
    (hkind : token.kind = .string) :
    ∃ content, token.text.toList = '"' :: (content ++ ['"']) ∧
      StandsFor content (unquote token.text.toList) := by
  have hread := recognise_of_leading (leading?_of_mem_scan hmem)
  rw [hkind] at hread
  rcases exists_standsFor_of_string hread with ⟨content, value, htext, hstands⟩
  rw [List.take_length] at htext
  exact ⟨content, htext, by rw [htext, hstands.unquote]; exact hstands⟩

/-- Every value can be written as a string and is read back: what is written is one token, whose literal is
the value, and printing it is a call with the value as its only argument. Every string of a passage is
characters between two quotes that stand for its value; a backslash among them always has the character
behind it that it escapes. -/
theorem strings_read_back :
    (∀ value : String,
      (∃ token, tokenize (writeString value) = .ok [token] ∧ token.kind = .string ∧
        token.text = writeString value ∧ token.start = 0 ∧
        token.stop = (writeString value).utf8ByteSize ∧ token.literal? = some (.string value)) ∧
      parse .builtin ("(print: " ++ writeString value ++ ")") =
        .ok ⟨[.call ⟨"print", none, [.value (.string value)], .positional [.expression]⟩ none]⟩) ∧
    ∀ source : String, ∃ tokens, tokenize source = .ok tokens ∧
      ∀ token ∈ tokens, token.kind = .string →
        ∃ content, token.text.toList = '"' :: (content ++ ['"']) ∧
          StandsFor content (unquote token.text.toList) := by
  constructor
  · intro value
    have htokens : tokenize (writeString value) =
        .ok [⟨.string, writeString value, 0, (writeString value).utf8ByteSize⟩] := by
      rw [tokenize_eq, scan_writeString]
    exact ⟨⟨_, htokens, rfl, rfl, rfl, rfl, literal?_writeString rfl rfl⟩, parse_print value⟩
  · intro source
    refine ⟨scan source, tokenize_eq source, ?_⟩
    intro token hmem hkind
    exact standsFor_of_mem_scan hmem hkind

/-- A value of a backslash, a quote, a line feed and a backslash, written out; and an unfinished string behind
one with escapes. -/
theorem strings_read_back_escapes :
    parse .builtin "(print: \"\\\\\\\"\n\\\\\")" =
        .ok ⟨[.call ⟨"print", none, [.value (.string "\\\"\n\\")], .positional [.expression]⟩ none]⟩ ∧
      ∃ tokens, tokenize "\"a\\\\\\\"\"\"\\" = .ok tokens ∧
        ∃ token ∈ tokens, token.kind = .string ∧ token.text = "\"a\\\\\\\"\"" ∧
          ∃ content, token.text.toList = '"' :: (content ++ ['"']) ∧
            StandsFor content (unquote token.text.toList) := by
  constructor
  · exact (strings_read_back.1 "\\\"\n\\").2
  · rcases strings_read_back.2 "\"a\\\\\\\"\"\"\\" with ⟨tokens, htokens, hstrings⟩
    have hmem : ⟨.string, "\"a\\\\\\\"\"", 0, 7⟩ ∈ tokens := by
      rw [tokenize_eq, Except.ok.injEq] at htokens
      rw [← htokens]
      decide +kernel
    exact ⟨tokens, htokens, _, hmem, rfl, rfl, hstrings _ hmem rfl⟩

end PassageMarkup
