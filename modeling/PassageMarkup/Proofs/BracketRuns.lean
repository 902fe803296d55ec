/-
Module: PassageMarkup.Proofs.BracketRuns
Layer: Proofs
Purpose: How runs of brackets are scanned and resolved. The scan pairs the brackets of a run from the left,
  and resolving splits and swaps the pairs with the help of the brackets that are open. Here the two are
  taken together: for each way to open or close a hook or a link there is a rule which says what the
  characters at some place resolve into.
Imports: Proofs.Resolution
Main exports: leading?_openTwo, leading?_openOne, leading?_closeTwo, leading?_closeOne,
  isBracket_of_leading, leading?_blanks, Lexes.openTwo, Lexes.closeTwo, resolveFrom_of_plain, Resolves and
  its rules
-/
import PassageMarkup.Proofs.Resolution

namespace PassageMarkup

open Text Recognise

/-! ### Leading brackets -/

/-- A kind leads if it fits and no kind before it does. -/
theorem leading?_of_first {cs : List Char} {kind : Kind} {n : Nat} (before behind : List Kind)
    (hall : Kind.all = before ++ kind :: behind) (hread : kind.recognise cs = some n)
    (hnone : ∀ other ∈ before, other.recognise cs = none) : leading? cs = some (kind, n) :=
  leading?_eq_some_iff.2 ⟨before, behind, hall, hread, hnone⟩

theorem leading?_openTwo (rest : List Char) : leading? ('[' :: '[' :: rest) = some (.linkOpen, 2) := by
  have hblank : isBlank '[' = false := by decide
  apply leading?_of_first [.whitespace] _ rfl
  · simp [Kind.recognise, exactly]
  · simp [Kind.recognise, run, runLength, hblank]

theorem leading?_openOne {rest : List Char} (h : rest.head? ≠ some '[') :
    leading? ('[' :: rest) = some (.hookOpen, 1) := by
  have hblank : isBlank '[' = false := by decide
  apply leading?_of_first [.whitespace, .linkOpen, .linkClose, .linkArrow] _ rfl
  · simp [Kind.recognise, exactly]
  · have hpair : ¬ ['['] <+: rest := by
      rintro ⟨more, rfl⟩
      exact h rfl
    simp [Kind.recognise, exactly, run, runLength, hblank, hpair]

theorem leading?_closeTwo (rest : List Char) : leading? (']' :: ']' :: rest) = some (.linkClose, 2) := by
  have hblank : isBlank ']' = false := by decide
  apply leading?_of_first [.whitespace, .linkOpen] _ rfl
  · simp [Kind.recognise, exactly]
  · simp [Kind.recognise, exactly, run, runLength, hblank]

theorem leading?_closeOne {rest : List Char} (h : rest.head? ≠ some ']') :
    leading? (']' :: rest) = some (.hookClose, 1) := by
  have hblank : isBlank ']' = false := by decide
  apply leading?_of_first [.whitespace, .linkOpen, .linkClose, .linkArrow, .hookOpen] _ rfl
  · simp [Kind.recognise, exactly]
  · have hpair : ¬ [']'] <+: rest := by
      rintro ⟨more, rfl⟩
      exact h rfl
    simp [Kind.recognise, exactly, run, runLength, hblank, hpair]

/-- A leading token that starts with a bracket is a bracket. -/
theorem isBracket_of_leading {c : Char} {rest : List Char} {kind : Kind} {n : Nat}
    (hc : c = '[' ∨ c = ']') (h : leading? (c :: rest) = some (kind, n)) : kind.isBracket = true := by
  rcases hc with rfl | rfl
  · by_cases hrest : rest.head? = some '['
    · rcases List.head?_eq_some_iff.1 hrest with ⟨more, rfl⟩
      rw [leading?_openTwo] at h
      cases h
      rfl
    · rw [leading?_openOne hrest] at h
      cases h
      rfl
  · by_cases hrest : rest.head? = some ']'
    · rcases List.head?_eq_some_iff.1 hrest with ⟨more, rfl⟩
      rw [leading?_closeTwo] at h
      cases h
      rfl
    · rw [leading?_closeOne hrest] at h
      cases h
      rfl

/-- All the blanks in front of a text that is solid there are one leading run. -/
theorem leading?_blanks {gap rest : List Char} (hne : gap ≠ []) (hgap : ∀ c ∈ gap, isBlank c = true)
    (hrest : ∀ c ∈ rest.head?, isBlank c = false) :
    leading? (gap ++ rest) = some (.whitespace, gap.length) := by
  apply leading?_of_first [] _ rfl
  · have hrun : runLength isBlank (gap ++ rest) = gap.length := by
      have hstop : rest.takeWhile isBlank = [] := by
        cases rest with
        | nil => rfl
        | cons c rest => simp [hrest c rfl]
      rw [runLength, List.takeWhile_append_of_pos hgap, hstop, List.append_nil]
    exact run_eq_some.2 ⟨hrun, List.length_pos_iff.2 hne⟩
  · simp

theorem Lexes.afterBlanks {offset : Nat} {gap cs : List Char} {tokens : List Token}
    (hgap : ∀ c ∈ gap, isBlank c = true) (hcs : ∀ c ∈ cs.head?, isBlank c = false)
    (h : Lexes (offset + byteLength gap) cs tokens) : Lexes offset (gap ++ cs) tokens := by
  by_cases hne : gap = []
  · subst hne
    exact h
  · exact .blank (leading?_blanks hne hgap hcs) h

theorem Lexes.openTwo {offset : Nat} {rest : List Char} {tokens : List Token}
    (h : Lexes (offset + 2) rest tokens) :
    Lexes offset ('[' :: '[' :: rest) (⟨.linkOpen, "[[", offset, offset + 2⟩ :: tokens) := by
  have hleading : leading? (['[', '['] ++ rest) = some (.linkOpen, ['[', '['].length) := leading?_openTwo rest
  exact .token hleading (by simp) h

theorem Lexes.closeTwo {offset : Nat} {rest : List Char} {tokens : List Token}
    (h : Lexes (offset + 2) rest tokens) :
    Lexes offset (']' :: ']' :: rest) (⟨.linkClose, "]]", offset, offset + 2⟩ :: tokens) := by
  have hleading : leading? ([']', ']'] ++ rest) = some (.linkClose, [']', ']'].length) := leading?_closeTwo rest
  exact .token hleading (by simp) h

/-! ### Resolving one token -/

section Resolving

variable {opened : List OpenBracket} {token : Token} {rest : List Token}

theorem resolveFrom_plain (h : token.kind.isBracket = false) :
    resolveFrom opened (token :: rest) = token :: resolveFrom opened rest := by
  have hne : ∀ {kind : Kind}, kind.isBracket = true → token.kind ≠ kind := by
    intro kind hkind heq
    rw [heq, hkind] at h
    cases h
  rw [resolveFrom.eq_def]
  simp only
  split
  · next hkind => exact absurd hkind (hne rfl)
  · next hkind => exact absurd hkind (hne rfl)
  · next hkind => exact absurd hkind (hne rfl)
  · next hkind => exact absurd hkind (hne rfl)
  · rfl

/-- Tokens without a bracket are resolved as they are, and leave open what was open. -/
theorem resolveFrom_plain_append {tokens : List Token} (h : ∀ token ∈ tokens, token.kind.isBracket = false) :
    resolveFrom opened (tokens ++ rest) = tokens ++ resolveFrom opened rest := by
  induction tokens with
  | nil => rfl
  | cons token tokens ih =>
      rcases List.forall_mem_cons.1 h with ⟨hfirst, hothers⟩
      rw [List.cons_append, resolveFrom_plain hfirst, ih hothers, List.cons_append]

theorem resolveFrom_of_plain {tokens : List Token} (opened : List OpenBracket)
    (h : ∀ token ∈ tokens, token.kind.isBracket = false) : resolveFrom opened tokens = tokens := by
  have hresolved := @resolveFrom_plain_append opened [] tokens h
  rwa [List.append_nil, resolveFrom, List.append_nil] at hresolved

theorem resolveFrom_hookOpen (h : token.kind = .hookOpen) :
    resolveFrom opened (token :: rest) = token :: resolveFrom (.hook :: opened) rest := by
  rw [resolveFrom.eq_def]
  simp [h]

theorem resolveFrom_hookClose (h : token.kind = .hookClose) :
    resolveFrom (.hook :: opened) (token :: rest) = token :: resolveFrom opened rest := by
  rw [resolveFrom.eq_def]
  simp [h, closeHook]

theorem resolveFrom_linkClose (h : token.kind = .linkClose) :
    resolveFrom (.link :: opened) (token :: rest) = token :: resolveFrom opened rest := by
  rw [resolveFrom.eq_def]
  simp [h]

theorem resolveFrom_closeTwo (h : token.kind = .linkClose) :
    resolveFrom (.hook :: .hook :: opened) (token :: rest) =
      ⟨.hookClose, "]", token.start, token.start + 1⟩ ::
        ⟨.hookClose, "]", token.start + 1, token.stop⟩ :: resolveFrom opened rest := by
  rw [resolveFrom.eq_def]
  simp [h, closeHook]

theorem resolveFrom_openTwo {next : Token} (h : token.kind = .linkOpen)
    (hnext : next.kind = .hookOpen) (htouches : next.touches token = true) :
    resolveFrom opened (token :: next :: rest) =
      ⟨.hookOpen, "[", token.start, token.start + 1⟩ ::
        ⟨.linkOpen, "[[", token.start + 1, next.stop⟩ ::
          resolveFrom (.link :: .hook :: opened) rest := by
  rw [resolveFrom.eq_def]
  simp [h, hnext, htouches]

theorem resolveFrom_linkOpen (h : token.kind = .linkOpen)
    (hnext : ∀ next ∈ rest.head?, next.kind = .hookOpen → next.start ≠ token.stop) :
    resolveFrom opened (token :: rest) = token :: resolveFrom (.link :: opened) rest := by
  rw [resolveFrom.eq_def]
  cases rest with
  | nil => simp [h, resolveFrom]
  | cons next later =>
      have hsplit : ¬ (next.kind = .hookOpen ∧ next.touches token = true) := by
        rintro ⟨hkind, htouches⟩
        exact hnext next rfl hkind (by simpa [Token.touches] using htouches)
      simp [h, hsplit]

end Resolving

/-! ### Rules of resolving -/

/-- Characters that lex into tokens whose bracket runs resolve into the given ones. -/
def Resolves (opened : List OpenBracket) (offset : Nat) (cs : List Char) (tokens : List Token) : Prop :=
  ∃ scanned, Lexes offset cs scanned ∧ resolveFrom opened scanned = tokens

/-- A token that touches what is in front of it stands right at the start of its characters. -/
theorem Tiles.touching {offset : Nat} {cs : List Char} {token : Token} {tokens : List Token}
    (h : Tiles offset cs (token :: tokens)) (htouches : token.start = offset) :
    ∃ rest, cs = token.text.toList ++ rest := by
  cases h with
  | @token _ gap text rest _ _ _ _ _ htext hstart _ _ =>
      have hgap : gap = [] := eq_nil_of_byteLength (by omega)
      subst hgap
      exact ⟨rest, by simp [htext]⟩

/-- A scanned token that opens a hook or a link, and touches what is in front of it, starts with an
opening bracket. -/
theorem Lexes.head_of_open {offset : Nat} {cs : List Char} {token : Token} {tokens : List Token}
    (h : Lexes offset cs (token :: tokens)) (hkind : token.kind = .hookOpen ∨ token.kind = .linkOpen)
    (htouches : token.start = offset) : cs.head? = some '[' := by
  rcases h.tiles.touching htouches with ⟨rest, rfl⟩
  rcases h.exists_leading token List.mem_cons_self with ⟨more, hleading⟩
  rcases hkind with hkind | hkind
  · rw [hkind] at hleading
    rw [text_of_exactly rfl hleading]
    rfl
  · rw [hkind] at hleading
    rw [text_of_exactly rfl hleading]
    rfl

section Rules

variable {opened : List OpenBracket} {offset : Nat} {rest : List Char} {tokens : List Token}

theorem resolves_blanks {gap : List Char} (hgap : ∀ c ∈ gap, isBlank c = true) :
    Resolves opened offset gap [] := by
  refine ⟨[], ?_, rfl⟩
  rw [← List.append_nil gap]
  exact Lexes.afterBlanks hgap (by simp) .nil

theorem Resolves.afterBlanks {gap cs : List Char} (hgap : ∀ c ∈ gap, isBlank c = true)
    (hcs : ∀ c ∈ cs.head?, isBlank c = false)
    (h : Resolves opened (offset + byteLength gap) cs tokens) : Resolves opened offset (gap ++ cs) tokens := by
  rcases h with ⟨scanned, hlexes, hresolve⟩
  exact ⟨scanned, hlexes.afterBlanks hgap hcs, hresolve⟩

theorem Resolves.plain {kind : Kind} {text : List Char} (hkind : kind ≠ .whitespace)
    (hbracket : kind.isBracket = false)
    (hleading : leading? (text ++ rest) = some (kind, text.length))
    (h : Resolves opened (offset + byteLength text) rest tokens) :
    Resolves opened offset (text ++ rest)
      (⟨kind, String.ofList text, offset, offset + byteLength text⟩ :: tokens) := by
  rcases h with ⟨scanned, hlexes, rfl⟩
  exact ⟨_, .token hleading hkind hlexes, resolveFrom_plain hbracket⟩

theorem Resolves.openHook (hrest : rest.head? ≠ some '[')
    (h : Resolves (.hook :: opened) (offset + 1) rest tokens) :
    Resolves opened offset ('[' :: rest) (⟨.hookOpen, "[", offset, offset + 1⟩ :: tokens) := by
  rcases h with ⟨scanned, hlexes, rfl⟩
  have hleading : leading? (['['] ++ rest) = some (.hookOpen, ['['].length) := leading?_openOne hrest
  exact ⟨_, .token hleading (by simp) hlexes, resolveFrom_hookOpen rfl⟩

theorem Resolves.openLink (hrest : rest.head? ≠ some '[')
    (h : Resolves (.link :: opened) (offset + 2) rest tokens) :
    Resolves opened offset ('[' :: '[' :: rest) (⟨.linkOpen, "[[", offset, offset + 2⟩ :: tokens) := by
  rcases h with ⟨scanned, hlexes, rfl⟩
  refine ⟨_, hlexes.openTwo, resolveFrom_linkOpen rfl ?_⟩
  intro next hnext hkind htouches
  rcases List.head?_eq_some_iff.1 hnext with ⟨later, rfl⟩
  exact hrest (hlexes.head_of_open (.inl hkind) htouches)

/-- Three opening brackets are scanned as a link bracket and a hook bracket, and swapped. -/
theorem Resolves.openBoth (hrest : rest.head? ≠ some '[')
    (h : Resolves (.link :: .hook :: opened) (offset + 1 + 2) rest tokens) :
    Resolves opened offset ('[' :: '[' :: '[' :: rest)
      (⟨.hookOpen, "[", offset, offset + 1⟩ ::
        ⟨.linkOpen, "[[", offset + 1, offset + 1 + 2⟩ :: tokens) := by
  rcases h with ⟨scanned, hlexes, rfl⟩
  have hhook : leading? (['['] ++ rest) = some (.hookOpen, ['['].length) := leading?_openOne hrest
  have hsecond : Lexes (offset + 2) ('[' :: rest) (⟨.hookOpen, "[", offset + 2, offset + 2 + 1⟩ :: scanned) :=
    .token hhook (by simp) hlexes
  exact ⟨_, hsecond.openTwo, resolveFrom_openTwo rfl rfl (beq_self_eq_true (offset + 2))⟩

theorem Resolves.closeHook (hrest : rest.head? ≠ some ']')
    (h : Resolves opened (offset + 1) rest tokens) :
    Resolves (.hook :: opened) offset (']' :: rest)
      (⟨.hookClose, "]", offset, offset + 1⟩ :: tokens) := by
  rcases h with ⟨scanned, hlexes, rfl⟩
  have hleading : leading? ([']'] ++ rest) = some (.hookClose, [']'].length) := leading?_closeOne hrest
  exact ⟨_, .token hleading (by simp) hlexes, resolveFrom_hookClose rfl⟩

/-- Two closing brackets that close hooks are scanned as one link bracket, and split. -/
theorem Resolves.closeTwo (h : Resolves opened (offset + 1 + 1) rest tokens) :
    Resolves (.hook :: .hook :: opened) offset (']' :: ']' :: rest)
      (⟨.hookClose, "]", offset, offset + 1⟩ ::
        ⟨.hookClose, "]", offset + 1, offset + 1 + 1⟩ :: tokens) := by
  rcases h with ⟨scanned, hlexes, rfl⟩
  exact ⟨_, hlexes.closeTwo, resolveFrom_closeTwo rfl⟩

theorem Resolves.closeLink (h : Resolves opened (offset + 2) rest tokens) :
    Resolves (.link :: opened) offset (']' :: ']' :: rest)
      (⟨.linkClose, "]]", offset, offset + 2⟩ :: tokens) := by
  rcases h with ⟨scanned, hlexes, rfl⟩
  exact ⟨_, hlexes.closeTwo, resolveFrom_linkClose rfl⟩

end Rules

end PassageMarkup
