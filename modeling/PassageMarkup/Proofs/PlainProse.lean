/-
Module: PassageMarkup.Proofs.PlainProse
Layer: Proofs
Purpose: Passages that are nothing but prose. Without a bracket and without the head of a call there is
  nothing that reading could refuse: all tokens, whatever else they are, go into one run of text, and the
  text of that run is the passage without the blanks at its ends. Conversely a tree without nodes has no
  tokens to account for, so its passage is blank.
Imports: Proofs.BracketRuns, Proofs.Coverage, Proofs.Stretches
Main exports: reads_run, readPhrases_run, Covers.eq_nil, parse_prose
-/
import PassageMarkup.Proofs.BracketRuns
import PassageMarkup.Proofs.Coverage
import PassageMarkup.Proofs.Stretches

namespace PassageMarkup

open Text

/-- Running text goes into the run before it, whatever is open around it. -/
theorem reads_run {hooks : List OpenHook} {phrases : List Phrase} {tokens : List Token}
    (h : ∀ token ∈ tokens, (levelOf hooks).isRun token.kind = true) (run : List Token) :
    Reads ⟨hooks, phrases, .prose run⟩ tokens ⟨hooks, phrases, .prose (tokens.reverse ++ run)⟩ := by
  induction tokens generalizing run with
  | nil => exact .nil
  | cons token tokens ih =>
      rcases List.forall_mem_cons.1 h with ⟨hfirst, hothers⟩
      have hrest := ih hothers (token :: run)
      rw [List.reverse_cons, List.append_assoc, List.singleton_append]
      exact .cons (.text hfirst) hrest

/-- Running text by itself is read as one run, or as nothing if there is none. -/
theorem readPhrases_run {tokens : List Token}
    (h : ∀ token ∈ tokens, Level.passage.isRun token.kind = true) :
    readPhrases tokens = .ok (endRun tokens.reverse []).reverse := by
  have hreads : Reads .start tokens ⟨[], [], .prose (tokens.reverse ++ [])⟩ := reads_run h []
  rw [List.append_nil] at hreads
  exact readFrom_eq_ok_iff.2 ⟨_, hreads, rfl⟩

/-- The nodes of a passage of running text. -/
theorem nodesOf_run {catalog : Catalog} {source : String} {tokens : List Token}
    (h : Tiles 0 source.toList tokens) :
    nodesOf source catalog (endRun tokens.reverse []).reverse =
      .ok (if allBlank source then [] else [.text (trim source)]) := by
  cases tokens with
  | nil =>
      have hblank : allBlank source = true := List.all_eq_true.2 h.blank_of_nil
      rw [if_pos hblank]
      rfl
  | cons token tokens =>
      have hne : token :: tokens ≠ [] := List.cons_ne_nil token tokens
      rcases spanText_of_all h hne with ⟨hspan, hblank⟩
      have hcontent : allBlank (spanText source (token :: tokens)) = false :=
        allBlank_spanText h (List.infix_refl _) hne
      have hrun : (endRun (token :: tokens).reverse []).reverse = [.prose (token :: tokens)] := by
        simp [endRun]
      have hnodes : proseNodes source (token :: tokens) = [.text (trim source)] := by
        rw [proseNodes, hspan, if_neg]
        rw [← hspan, hcontent]
        exact Bool.false_ne_true
      rw [hrun, hblank, if_neg Bool.false_ne_true, ← hnodes]
      simp [nodesOf, Phrase.nodes, bind, Except.bind, pure, Except.pure]

/-- Nodes stand for at least one token each, so no nodes stand for no tokens. -/
theorem Covers.eq_nil {source : String} {level : Level} {tokens : List Token}
    (h : Covers source level [] tokens) : tokens = [] := by
  cases h with
  | nil => rfl

/-- A passage has tokens, and if none of them is a bracket or the head of a call, then it is accepted under
every catalog: without nodes if it is blank, and else with one node, its whole text, trimmed. Only a blank
passage has a tree without nodes. -/
theorem parse_prose (catalog : Catalog) (source : String) :
    (∃ tokens, tokenize source = .ok tokens ∧
      ((∀ token ∈ tokens, token.kind.isBracket = false ∧ token.kind ≠ .callHead) →
        parse catalog source = .ok ⟨if allBlank source then [] else [.text (trim source)]⟩)) ∧
      ∀ program, parse catalog source = .ok program → program.nodes = [] →
        ∀ c ∈ source.toList, isBlank c = true := by
  constructor
  · refine ⟨scan source, tokenize_eq source, ?_⟩
    intro hplain
    have hrun : ∀ token ∈ scan source, Level.passage.isRun token.kind = true := by
      intro token hmem
      rcases hplain token hmem with ⟨hbracket, hhead⟩
      simp [Level.isRun, hbracket, hhead]
    have htokens : tokensOf source = scan source :=
      resolveFrom_of_plain [] fun token hmem => (hplain token hmem).1
    apply parse_eq_ok_iff.2
    rw [htokens]
    exact ⟨_, readPhrases_run hrun, nodesOf_run (tiles_scan source)⟩
  · intro program hparse hnodes
    have hcovers := covers_of_parse hparse
    rw [hnodes] at hcovers
    have htiles := tiles_tokensOf source
    rw [hcovers.eq_nil] at htiles
    exact htiles.blank_of_nil

/-- Brackets and a head inside a string, a variable, a comparison, a parenthesis that closes nothing and
blanks of several bytes at both ends. -/
theorem parse_prose_quoted_brackets :
    (∃ tokens, tokenize "\u2003$v \"é [[(x: \" >= 3 ) ->naïve\u00a0" = .ok tokens ∧
      ∀ token ∈ tokens, token.kind.isBracket = false ∧ token.kind ≠ .callHead) ∧
      parse .builtin "\u2003$v \"é [[(x: \" >= 3 ) ->naïve\u00a0" =
        .ok ⟨[.text "$v \"é [[(x: \" >= 3 ) ->naïve"]⟩ := by
  rcases (parse_prose .builtin "\u2003$v \"é [[(x: \" >= 3 ) ->naïve\u00a0").1 with
    ⟨tokens, htokens, hprose⟩
  have hplain : ∀ token ∈ tokens, token.kind.isBracket = false ∧ token.kind ≠ .callHead := by
    rw [tokenize_eq, Except.ok.injEq] at htokens
    rw [← htokens]
    decide +kernel
  have hblank : allBlank "\u2003$v \"é [[(x: \" >= 3 ) ->naïve\u00a0" = false := by decide +kernel
  have htrim : trim "\u2003$v \"é [[(x: \" >= 3 ) ->naïve\u00a0" =
      "$v \"é [[(x: \" >= 3 ) ->naïve" := by decide +kernel
  have hparse := hprose hplain
  rw [hblank, htrim, if_neg Bool.false_ne_true] at hparse
  exact ⟨⟨tokens, htokens, hplain⟩, hparse⟩

end PassageMarkup
