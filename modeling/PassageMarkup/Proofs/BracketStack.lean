/-
Module: PassageMarkup.Proofs.BracketStack
Layer: Proofs
Purpose: What resolved bracket runs look like. The brackets that resolving takes for open are those that
  the tokens it answers open and close, so it leaves no closing link bracket behind an open hook; and it
  conserves the token stream: the same bytes are covered, and nothing but brackets has changed.
  Resolving again changes nothing where, besides, no link bracket has a hook bracket directly behind it.
  A run of five opening brackets shows that this can fail: only the last link bracket of the run is
  divided anew with the hook bracket, and the one in front of it is then next to a hook bracket.
Imports: Proofs.Nesting
Main exports: openAfter, ClosersFit, Resolved.closersFit, CoversByte, Resolved.coversByte_iff,
  resolveBrackets_conserves, Resolved.eq_iff, HasLongRun, Resolved.isChain_iff, resolveBrackets_again_iff
-/
import PassageMarkup.Proofs.Nesting

namespace PassageMarkup

open Text

/-! ### Open brackets among resolved tokens -/

/-- The brackets that are open behind some tokens, where others are open in front of them. -/
def openAfter (opened : List OpenBracket) (tokens : List Token) : List OpenBracket :=
  tokens.foldl (fun inside token => token.kind.turn inside) opened

/-- No closing link bracket among the tokens comes while a hook is innermost. -/
def ClosersFit (opened : List OpenBracket) (tokens : List Token) : Prop :=
  ∀ before token behind, tokens = before ++ token :: behind → token.kind = .linkClose →
    (openAfter opened before).head? ≠ some .hook

theorem closersFit_cons {opened : List OpenBracket} {token : Token} {rest : List Token} :
    ClosersFit opened (token :: rest) ↔
      (token.kind = .linkClose → opened.head? ≠ some .hook) ∧
        ClosersFit (token.kind.turn opened) rest := by
  constructor
  · intro h
    refine ⟨h [] token rest rfl, ?_⟩
    intro before other behind heq
    exact h (token :: before) other behind (congrArg (token :: ·) heq)
  · rintro ⟨hfirst, hrest⟩ before other behind heq
    cases before with
    | nil =>
        obtain ⟨rfl, _⟩ := List.cons.inj heq
        exact hfirst
    | cons first before =>
        obtain ⟨rfl, htail⟩ := List.cons.inj heq
        exact hrest before other behind htail

section Resolved

variable {opened : List OpenBracket} {tokens resolved : List Token}

/-- The open brackets of a step are those of the tokens that the steps before it have answered, so a
closing link bracket that is kept meets no hook. -/
theorem Resolved.closersFit (h : Resolved opened tokens resolved) : ClosersFit opened resolved := by
  induction h with
  | nil =>
      intro before token behind heq
      simp at heq
  | keep _ hclose _ ih => exact closersFit_cons.2 ⟨hclose, ih⟩
  | swap _ _ ih =>
      apply closersFit_cons.2
      refine ⟨by simp, closersFit_cons.2 ⟨by simp, ?_⟩⟩
      exact ih
  | split _ _ ih =>
      apply closersFit_cons.2
      refine ⟨by simp, closersFit_cons.2 ⟨by simp, ?_⟩⟩
      exact ih

/-! ### The bytes that tokens cover -/

/-- A byte of the passage that belongs to one of the tokens. -/
def CoversByte (tokens : List Token) (byte : Nat) : Prop :=
  ∃ token ∈ tokens, token.start ≤ byte ∧ byte < token.stop

theorem coversByte_cons {token : Token} {rest : List Token} {byte : Nat} :
    CoversByte (token :: rest) byte ↔
      (token.start ≤ byte ∧ byte < token.stop) ∨ CoversByte rest byte := by
  simp [CoversByte]

/-- Resolved tokens cover the bytes that were covered before. -/
theorem Resolved.coversByte_iff (h : Resolved opened tokens resolved)
    (hspans : ∀ token ∈ tokens, token.start < token.stop) (byte : Nat) :
    CoversByte resolved byte ↔ CoversByte tokens byte := by
  induction h with
  | nil => exact Iff.rfl
  | keep _ _ _ ih =>
      rw [coversByte_cons, coversByte_cons, ih (List.forall_mem_cons.1 hspans).2]
  | swap hopen _ ih =>
      rw [List.forall_mem_cons, List.forall_mem_cons] at hspans
      have hfirst := hspans.1
      have hsecond := hspans.2.1
      have htouches := hopen.2.2
      simp only [coversByte_cons, ih hspans.2.2]
      rw [← or_assoc, ← or_assoc]
      apply or_congr_left
      omega
  | split _ _ ih =>
      rw [List.forall_mem_cons] at hspans
      have hfirst := hspans.1
      simp only [coversByte_cons, ih hspans.2]
      rw [← or_assoc]
      apply or_congr_left
      omega

end Resolved

/-- Resolving the bracket runs of a passage conserves its tokens: the byte ranges are nonempty and follow
each other without overlap, the text of a token is the slice of the passage at its range, the same bytes
are covered, and the tokens that are no brackets are the same, in the same order. No closing link bracket
is left at which the resolved tokens in front of it have a hook open innermost. -/
theorem resolveBrackets_conserves (source : String) :
    ∃ tokens, tokenize source = .ok tokens ∧
      (∀ token ∈ resolveBrackets tokens, token.start < token.stop ∧
        token.text = slice source token.start token.stop) ∧
      ((resolveBrackets tokens).Pairwise fun first second => first.stop ≤ second.start) ∧
      (∀ byte, CoversByte (resolveBrackets tokens) byte ↔ CoversByte tokens byte) ∧
      ((resolveBrackets tokens).filter (fun token => !token.kind.isBracket) =
        tokens.filter fun token => !token.kind.isBracket) ∧
      ClosersFit [] (resolveBrackets tokens) := by
  have hresolved : Resolved [] (scan source) (tokensOf source) := resolved_resolveFrom [] (scan source)
  have htiles := tiles_tokensOf source
  refine ⟨scan source, tokenize_eq source, ?_, htiles.pairwise, ?_, hresolved.filter_plain,
    hresolved.closersFit⟩
  · intro token hmem
    exact ⟨(htiles.start_lt_stop token hmem).2, (htiles.mem_slice hmem).2.2.1⟩
  · apply hresolved.coversByte_iff
    intro token hmem
    exact ((tiles_scan source).start_lt_stop token hmem).2

/-! ### Resolving again -/

section Again

variable {opened : List OpenBracket} {token : Token} {tokens rest resolved : List Token}

/-- Tokens stay as they are exactly if no closing link bracket meets a hook and no link bracket has a hook
bracket directly behind it. -/
theorem Resolved.eq_iff (h : Resolved opened tokens resolved) :
    resolved = tokens ↔
      ClosersFit opened tokens ∧ tokens.IsChain fun first second => ¬ LinkThenHook first second := by
  induction h with
  | nil => exact ⟨fun _ => ⟨Resolved.nil.closersFit, .nil⟩, fun _ => rfl⟩
  | keep hopen hclose _ ih =>
      rw [List.cons.injEq, ih, closersFit_cons, List.isChain_cons]
      constructor
      · rintro ⟨_, hfit, hchain⟩
        exact ⟨⟨hclose, hfit⟩, hopen, hchain⟩
      · rintro ⟨⟨_, hfit⟩, _, hchain⟩
        exact ⟨rfl, hfit, hchain⟩
  | @swap _ token next rest resolved hopen _ _ =>
      constructor
      · intro heq
        have hkind := congrArg Token.kind (List.cons.inj heq).1
        rw [hopen.1] at hkind
        cases hkind
      · rintro ⟨_, hchain⟩
        exact absurd hopen (List.isChain_cons_cons.1 hchain).1
  | @split _ token rest resolved hclose _ _ =>
      constructor
      · intro heq
        have hkind := congrArg Token.kind (List.cons.inj heq).1
        rw [hclose] at hkind
        cases hkind
      · rintro ⟨hfit, _⟩
        exact absurd rfl ((closersFit_cons.1 hfit).1 hclose)

/-- A run of five or more opening brackets that is odd: two link brackets and a hook bracket, each directly
behind the other. -/
def HasLongRun (tokens : List Token) : Prop :=
  ∃ first second third, [first, second, third] <:+: tokens ∧ first.kind = .linkOpen ∧
    second.start = first.stop ∧ LinkThenHook second third

theorem hasLongRun_cons : HasLongRun (token :: rest) ↔
    (token.kind = .linkOpen ∧ ∃ second third later, rest = second :: third :: later ∧
      second.start = token.stop ∧ LinkThenHook second third) ∨ HasLongRun rest := by
  constructor
  · rintro ⟨first, second, third, hinfix, hkind, htouches, hopen⟩
    rcases List.infix_cons_iff.1 hinfix with hprefix | hinfix
    · obtain ⟨rfl, later, hrest⟩ := List.cons_prefix_cons.1 hprefix
      exact .inl ⟨hkind, second, third, later, hrest.symm, htouches, hopen⟩
    · exact .inr ⟨first, second, third, hinfix, hkind, htouches, hopen⟩
  · rintro (⟨hkind, second, third, later, rfl, htouches, hopen⟩ | ⟨first, second, third, hinfix, hrun⟩)
    · exact ⟨token, second, third, ⟨[], later, rfl⟩, hkind, htouches, hopen⟩
    · exact ⟨first, second, third, hinfix.trans (List.suffix_cons _ _).isInfix, hrun⟩

theorem hasLongRun_cons_of_ne (h : token.kind ≠ .linkOpen) :
    HasLongRun (token :: rest) ↔ HasLongRun rest := by
  rw [hasLongRun_cons]
  exact or_iff_right fun hrun => h hrun.1

theorem isChain_cons_of_ne (h : token.kind ≠ .linkOpen) :
    (token :: rest).IsChain (fun first second => ¬ LinkThenHook first second) ↔
      rest.IsChain fun first second => ¬ LinkThenHook first second := by
  rw [List.isChain_cons]
  exact and_iff_right fun _ _ hopen => h hopen.1

/-- A link bracket that is kept has a hook bracket directly behind it exactly if the bracket behind it is a
link bracket that is divided anew. -/
theorem Resolved.head_linkThenHook_iff (h : Resolved opened rest resolved)
    (hopen : ∀ next ∈ rest.head?, ¬ LinkThenHook token next) :
    (∃ first ∈ resolved.head?, LinkThenHook token first) ↔
      token.kind = .linkOpen ∧ ∃ second third later, rest = second :: third :: later ∧
        second.start = token.stop ∧ LinkThenHook second third := by
  constructor
  · rintro ⟨first, hfirst, hlink, hhook, htouches⟩
    rcases h.head hfirst with ⟨second, later, rfl, hstart, hopens⟩
    rw [hstart] at htouches
    rcases hopens hhook with hsecond | ⟨third, hthird, hrun⟩
    · exact absurd ⟨hlink, hsecond, htouches⟩ (hopen second rfl)
    · rcases List.head?_eq_some_iff.1 hthird with ⟨others, rfl⟩
      exact ⟨hlink, second, third, others, rfl, htouches, hrun⟩
  · rintro ⟨hlink, second, third, later, rfl, htouches, hrun⟩
    cases h with
    | keep hkeep => exact absurd hrun (hkeep third rfl)
    | swap => exact ⟨_, rfl, hlink, rfl, htouches⟩
    | split hclose =>
        rw [hrun.1] at hclose
        cases hclose

/-- The resolved tokens of a passage have a hook bracket directly behind a link bracket exactly if the
passage has a long run. What makes the one from the other is the division of the last three brackets of
the run; behind a run no bracket is opened, for it would belong to the run. -/
theorem Resolved.isChain_iff (h : Resolved opened tokens resolved)
    (hbehind : tokens.IsChain NoOpenBehind) :
    resolved.IsChain (fun first second => ¬ LinkThenHook first second) ↔ ¬ HasLongRun tokens := by
  induction h with
  | nil => simp [HasLongRun]
  | keep hopen _ hrest ih =>
      rw [List.isChain_cons, ih hbehind.tail, hasLongRun_cons, not_or,
        ← hrest.head_linkThenHook_iff hopen]
      simp
  | @swap _ token next rest resolved hopen hrest ih =>
      have hnext : next.kind ≠ .linkOpen := by simp [hopen.2.1]
      have hfirst : HasLongRun (token :: next :: rest) ↔ HasLongRun (next :: rest) := by
        rw [hasLongRun_cons]
        apply or_iff_right
        rintro ⟨_, second, third, later, heq, _, hrun⟩
        obtain ⟨rfl, _⟩ := List.cons.inj heq
        exact hnext hrun.1
      rw [isChain_cons_of_ne (by simp), List.isChain_cons, ih hbehind.tail.tail, hfirst,
        hasLongRun_cons_of_ne hnext]
      apply and_iff_right
      rintro first hhead ⟨_, hhook, htouches⟩
      rcases hrest.head_opens hhead hhook with ⟨other, hother, hstart, hopens⟩
      rw [hstart] at htouches
      exact (List.isChain_cons.1 hbehind.tail).1 other hother hopen.2.1 htouches hopens
  | split hclose _ ih =>
      rw [isChain_cons_of_ne (by simp), isChain_cons_of_ne (by simp), ih hbehind.tail,
        hasLongRun_cons_of_ne (by simp [hclose])]

end Again

/-- Resolving the bracket runs of a passage again changes nothing exactly if the passage has no odd run of
five or more opening brackets, and exactly then no hook is opened directly behind a link bracket. -/
theorem resolveBrackets_again_iff (source : String) :
    ∃ tokens, tokenize source = .ok tokens ∧
      (resolveBrackets (resolveBrackets tokens) = resolveBrackets tokens ↔ ¬ HasLongRun tokens) ∧
      ((resolveBrackets tokens).IsChain (fun first second => ¬ LinkThenHook first second) ↔
        ¬ HasLongRun tokens) := by
  have hresolved : Resolved [] (scan source) (tokensOf source) := resolved_resolveFrom [] (scan source)
  have hchain := hresolved.isChain_iff (lexes_scan source).noOpenBehind
  have hagain : Resolved [] (tokensOf source) (resolveBrackets (tokensOf source)) :=
    resolved_resolveFrom [] (tokensOf source)
  refine ⟨scan source, tokenize_eq source, ?_, hchain⟩
  rw [← hchain]
  exact hagain.eq_iff.trans (and_iff_right hresolved.closersFit)

/-- Five opening brackets resolve into a link bracket, a hook bracket directly behind it and another link
bracket, and into something else when they are resolved again. -/
theorem resolveBrackets_five_opening :
    ∃ tokens, tokenize "[[[[[" = .ok tokens ∧
      resolveBrackets tokens = [⟨.linkOpen, "[[", 0, 2⟩, ⟨.hookOpen, "[", 2, 3⟩, ⟨.linkOpen, "[[", 3, 5⟩] ∧
      resolveBrackets (resolveBrackets tokens) ≠ resolveBrackets tokens ∧
      ¬ (resolveBrackets tokens).IsChain (fun first second => ¬ LinkThenHook first second) := by
  have hresolved : resolveBrackets (scan "[[[[[") =
      [⟨.linkOpen, "[[", 0, 2⟩, ⟨.hookOpen, "[", 2, 3⟩, ⟨.linkOpen, "[[", 3, 5⟩] := by decide +kernel
  refine ⟨scan "[[[[[", tokenize_eq _, hresolved, ?_, ?_⟩
  · decide +kernel
  · rw [hresolved]
    intro hchain
    exact (List.isChain_cons_cons.1 hchain).1 ⟨rfl, rfl, rfl⟩

end PassageMarkup
