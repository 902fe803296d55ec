/-
Module: PassageMarkup.Proofs.LabelReading
Layer: Proofs
Purpose: Reading a label back. Durations and variables keep the spelling they have in the passage, so the
  literals of a call are tokens of their own again; the label of a call is then one call, with the name of
  the call and arguments that its words are read as. Hence the label of a call in an accepted passage
  is an accepted passage itself, whose tree is that call without its hook.
Imports: Proofs.Agreement, Proofs.CallAlone, Proofs.LabelLexing
Main exports: isSpelled_of_literal?, Supplies, Supplies.arguments, derives_of_isInner, parse_of_spells,
  parse_callLabel, Becomes.exists_callText, parse_label
-/
import PassageMarkup.Proofs.Agreement
import PassageMarkup.Proofs.CallAlone
import PassageMarkup.Proofs.LabelLexing

namespace PassageMarkup

open Text Recognise

/-! ### Tokens of a passage -/

/-- The literal of a token that is one by itself keeps a spelling that is. -/
theorem isSpelled_of_literal? {token : Token} {literal : Literal}
    (hleading : leading? token.text.toList = some (token.kind, token.text.toList.length))
    (h : token.literal? = some literal) : literal.IsSpelled := by
  unfold Token.literal? at h
  split at h
  · cases h
    trivial
  · rcases Option.map_eq_some_iff.1 h with ⟨value, _, rfl⟩
    trivial
  · cases h
    trivial
  · next hkind =>
    cases h
    rw [hkind] at hleading
    exact hleading
  · next hkind =>
    cases h
    rw [hkind] at hleading
    rcases nameAfter_eq_some.1 (recognise_of_leading hleading) with ⟨c, rest, htext, _, _⟩
    have hlabel : (Literal.variable (String.ofList (token.text.toList.drop 1))).label.toList =
        token.text.toList := by
      rw [toList_label_variable, htext]
      simp
    unfold Literal.IsSpelled
    rw [hlabel]
    exact hleading
  · cases h

/-! ### Literals of arguments -/

/-- The literals that tokens are by themselves all have a property. -/
def Supplies (P : Literal → Prop) (tokens : List Token) : Prop :=
  ∀ token ∈ tokens, ∀ literal, token.literal? = some literal → P literal

section Literals

variable {P : Literal → Prop}

theorem Supplies.parts {front back : List Token} {token : Token} (h : Supplies P (front ++ token :: back)) :
    Supplies P front ∧ Supplies P back :=
  ⟨fun other hmem => h other (by simp [hmem]), fun other hmem => h other (by simp [hmem])⟩

variable (hnumber : ∀ value, P (.number value))

include hnumber

theorem Supplies.value {form : ValueForm} (h : Supplies P form.tokens) : P form.value := by
  cases form with
  | single token value hvalue => exact h token List.mem_cons_self value hvalue
  | negative => exact hnumber _

theorem Supplies.side {form : SideForm} (h : Supplies P form.tokens) :
    ∀ literal ∈ form.expression.literals, P literal := by
  cases form with
  | bare value =>
      intro literal hmem
      rw [List.mem_singleton.1 hmem]
      exact Supplies.value hnumber h
  | operation left sign operator hkind htext right =>
      rcases h.parts with ⟨hleft, hright⟩
      simpa [SideForm.expression, Expression.literals] using
        And.intro (hleft.value hnumber) (hright.value hnumber)

theorem Supplies.expression {form : ExpressionForm} (h : Supplies P form.tokens) :
    ∀ literal ∈ form.expression.literals, P literal := by
  cases form with
  | side form => exact Supplies.side hnumber h
  | comparison left sign operator hkind htext right =>
      rcases h.parts with ⟨hleft, hright⟩
      exact List.forall_mem_append.2 ⟨hleft.side hnumber, hright.side hnumber⟩

theorem Supplies.items {form : ItemsForm} (h : Supplies P form.tokens) :
    ∀ item ∈ form.expressions, ∀ literal ∈ item.literals, P literal := by
  induction form with
  | one item =>
      intro other hmem
      rw [List.mem_singleton.1 hmem]
      exact Supplies.expression hnumber h
  | more item comma hcomma others ih =>
      rcases h.parts with ⟨hitem, hothers⟩
      exact List.forall_mem_cons.2 ⟨hitem.expression hnumber, ih hothers⟩

/-- What is true of numbers and of the literals of tokens is true of all literals read from them. -/
theorem Supplies.arguments {body : List Token} (h : Supplies P body) :
    ∀ item ∈ (Arguments.ofTokens body).expressions, ∀ literal ∈ item.literals, P literal := by
  rcases Arguments.ofTokens_cases body with ⟨form, rfl⟩ | ⟨form, rfl⟩ | hunparsed
  · rcases h.parts with ⟨hleft, hright⟩
    rw [Arguments.ofTokens_keyword]
    simpa [KeywordForm.arguments, Arguments.expressions, Expression.literals] using
      And.intro (hleft.value hnumber) (hright.expression hnumber)
  · rw [Arguments.ofTokens_list]
    cases form with
    | empty => simp [Arguments.expressions, ListForm.expressions]
    | items form => exact Supplies.items hnumber h
  · simp [hunparsed, Arguments.expressions]

end Literals

/-- The literals that a call of a passage is read with keep their spelling. -/
theorem isSpelled_of_part {source : String} {body : List Token} (h : body <:+: tokensOf source) :
    ∀ item ∈ (Arguments.ofTokens body).expressions, ∀ literal ∈ item.literals, literal.IsSpelled := by
  refine Supplies.arguments (fun _ => trivial) ?_
  intro token hmem literal hliteral
  have hkind : token.kind.isBracket = false := by
    rw [Token.kind_of_literal? hliteral]
    cases literal <;> rfl
  exact isSpelled_of_literal? (leading?_of_mem_scan (mem_scan_of_mem_tokensOf (h.mem hmem) hkind)) hliteral

/-! ### A passage that is one call -/

/-- A kind of token that may stand in the body of a call and starts or ends no call. -/
def Kind.isInner (kind : Kind) : Bool :=
  !kind.isBracket && kind != .callHead && kind != .closeParen

theorem derives_of_isInner {body : List Token} (h : ∀ token ∈ body, token.kind.isInner = true) :
    Derives .elements body := by
  induction body with
  | nil => exact .elementsNil
  | cons token rest ih =>
      rcases List.forall_mem_cons.1 h with ⟨hfirst, hothers⟩
      simp only [Kind.isInner, Bool.and_eq_true, Bool.not_eq_true', bne_iff_ne] at hfirst
      exact .elementsCons (.elementPlain hfirst.1.1 hfirst.1.2 hfirst.2) (ih hothers)

theorem Expression.isInner_words {expression : Expression} :
    ∀ token ∈ expression.words, token.kind.isInner = true := by
  intro token hmem
  have hkind := inExpression_words hmem
  revert hkind
  cases token.kind <;> decide

theorem isInner_listWords (items : List Expression) :
    ∀ token ∈ listWords items, token.kind.isInner = true := by
  fun_induction listWords items with
  | case1 => simp
  | case2 item => exact item.isInner_words
  | case3 item others _ ih =>
      exact List.forall_mem_append.2 ⟨item.isInner_words, List.forall_mem_cons.2 ⟨rfl, ih⟩⟩

theorem Arguments.isInner_words (arguments : Arguments) :
    ∀ token ∈ arguments.words, token.kind.isInner = true := by
  cases arguments with
  | keyword word left right =>
      have hword : (Token.word word.kind word.symbol).kind.isInner = true := by cases word <;> rfl
      exact List.forall_mem_append.2
        ⟨left.isInner_words, List.forall_mem_cons.2 ⟨hword, right.isInner_words⟩⟩
  | list items => exact isInner_listWords items
  | unparsed => simp [words]

/-- A text that spells a call that the catalog knows is a passage that is read as just the call. -/
theorem parse_of_spells {catalog : Catalog} {source name : String} {words : List Token} {pattern : Pattern}
    (hspells : Spells source.toList (.word .callHead (String.ofList ('(' :: (name.toList ++ [':']))) ::
      (words ++ [.word .closeParen ")"])))
    (hinner : ∀ token ∈ words, token.kind.isInner = true)
    (hcheck : catalog.check name (Arguments.ofTokens words) = .ok (some pattern)) :
    parse catalog source = .ok ⟨[.call ⟨name, (Arguments.ofTokens words).keyword?,
      (Arguments.ofTokens words).expressions, pattern⟩ none]⟩ := by
  rcases hspells 0 with ⟨tokens, hlexes, htokens⟩
  rcases List.map_eq_cons_iff.1 htokens with ⟨head, rest, rfl, hword, hrest⟩
  rcases List.map_eq_append_iff.1 hrest with ⟨body, last, rfl, hbody, hlast⟩
  rcases List.map_eq_singleton_iff.1 hlast with ⟨closing, rfl, hparen⟩
  have hkind : head.kind = .callHead := congrArg Token.kind hword
  have hclosing : closing.kind = .closeParen := congrArg Token.kind hparen
  have hplain : ∀ token ∈ body, token.kind.isInner = true := by
    intro token hmem
    exact hinner token.bare (hbody ▸ List.mem_map_of_mem hmem)
  have hname : (CallText.mk head body closing).name = name := by
    have htext : head.text = String.ofList ('(' :: (name.toList ++ [':'])) := congrArg Token.text hword
    simp [CallText.name, htext]
  have hread : Arguments.ofTokens body = Arguments.ofTokens words := by
    rw [← Arguments.ofTokens_map moves_bare, hbody]
  have hfits : (CallText.mk head body closing).Fits := ⟨hkind, derives_of_isInner hplain, hclosing⟩
  have hchecked : catalog.check (CallText.mk head body closing).name (Arguments.ofTokens body) =
      .ok (some pattern) := by
    rw [hname, hread, hcheck]
  have halone := parse_call (scan?_of_lexes hlexes).2 hfits hchecked
  simpa only [CallText.node, hname, hread] using halone

/-- The label of a call that the catalog has checked is a passage that is read as just the call. -/
theorem parse_callLabel {catalog : Catalog} {name : String} {arguments : Arguments} {pattern : Pattern}
    (hhead : leading? ('(' :: (name.toList ++ [':'])) = some (.callHead, name.toList.length + 2))
    (hflat : arguments.IsFlat)
    (hcheck : catalog.check name arguments = .ok (some pattern))
    (hlegible : ∀ item ∈ arguments.expressions, ∀ literal ∈ item.literals, literal.IsLegible) :
    let call : Call := ⟨name, arguments.keyword?, arguments.expressions, pattern⟩
    parse catalog call.label = .ok ⟨[.call call none]⟩ := by
  have hparsed : arguments ≠ .unparsed := by
    rintro rfl
    cases (Catalog.check_eq_ok_some.1 hcheck).2
  have hread : Arguments.ofTokens arguments.words = arguments :=
    Arguments.ofTokens_words hflat hparsed fun item hitem literal hliteral =>
      (hlegible item hitem literal hliteral).1
  have hchecked : catalog.check name (Arguments.ofTokens arguments.words) = .ok (some pattern) := by
    rw [hread, hcheck]
  have hparse := parse_of_spells (spells_callLabel pattern hhead hparsed hlegible)
    arguments.isInner_words hchecked
  simpa only [hread] using hparse

/-! ### Calls of a passage -/

/-- A call of a tree stands for a call of the passage, with its name and its arguments. -/
theorem Becomes.exists_callText {source : String} {catalog : Catalog} {level : Level} {phrase : Phrase}
    {call : Call} {hook : Option (List Node)} (h : Becomes source catalog phrase (.call call hook))
    (hfits : phrase.Fits level) (hpart : phrase.yield <:+: tokensOf source) :
    ∃ text : CallText, text.Fits ∧ text.yield <:+: tokensOf source ∧
      catalog.check text.name (Arguments.ofTokens text.body) = .ok (some call.pattern) ∧
      call = ⟨text.name, (Arguments.ofTokens text.body).keyword?,
        (Arguments.ofTokens text.body).expressions, call.pattern⟩ := by
  rcases h.exists_call rfl hfits hpart with ⟨text, pattern, attached, htext, hyield, hcheck, hnode⟩
  cases pattern with
  | none => cases hnode
  | some pattern =>
      cases hnode
      exact ⟨text, htext, hyield, hcheck, rfl⟩

/-- The head of a call of a passage is a token by itself. -/
theorem CallText.leading?_head {source : String} {text : CallText} (hfits : text.Fits)
    (hpart : text.yield <:+: tokensOf source) :
    leading? ('(' :: (text.name.toList ++ [':'])) = some (.callHead, text.name.toList.length + 2) := by
  have hmem : text.head ∈ tokensOf source := hpart.mem (by simp [CallText.yield])
  have hscan := mem_scan_of_mem_tokensOf hmem (by rw [hfits.1]; rfl)
  have hleading := leading?_of_mem_scan hscan
  rw [head_text hmem hfits.1, hfits.1] at hleading
  simpa using hleading

/-- The label of a known call, at whatever depth of an accepted passage, is accepted with the same catalog,
and its tree is just that call without its hook, if no string among the arguments has a quote or a
backslash and every number is finite. -/
theorem parse_label {catalog : Catalog} {source : String} {program : Program}
    (hparse : parse catalog source = .ok program) {level : Level} {nodes : List Node}
    (hsiblings : Siblings program level nodes) {call : Call} {hook : Option (List Node)}
    (hmem : .call call hook ∈ nodes)
    (hplain : ∀ arg ∈ call.args, ∀ literal ∈ arg.literals, literal.IsPlain) :
    parse catalog call.label = .ok ⟨[.call call none]⟩ := by
  rcases hsiblings.origin hparse with ⟨phrases, hlevel, hnodes⟩
  rcases exists_becomes_of_mem (hlevel.becomes hnodes) hmem with ⟨phrase, hphrase, hbecomes⟩
  rcases hbecomes.exists_callText (hlevel.fits_of_mem hphrase) (hlevel.part_of_mem hphrase) with
    ⟨text, hfits, hpart, hcheck, hcall⟩
  have hbody : text.body <:+: tokensOf source := by
    refine List.IsInfix.trans ?_ hpart
    exact ⟨[text.head], [text.closing], rfl⟩
  rw [hcall] at hplain ⊢
  refine parse_callLabel (text.leading?_head hfits hpart) (Arguments.isFlat_ofTokens text.body) hcheck ?_
  intro item hitem literal hliteral
  exact ⟨hplain item hitem literal hliteral, isSpelled_of_part hbody item hitem literal hliteral⟩

/-- Whether a node is a call with a hook, a given label and literals that the label spells in full. -/
def Node.isHookedPlain (label : String) : Node → Bool
  | .call known (some _) => known.label == label &&
      decide (∀ arg ∈ known.args, ∀ value ∈ arg.literals, value.IsPlain)
  | _ => false

/-- A condition inside the hook of a call that is not known, with blanks that its label does not keep. -/
theorem parse_label_inside :
    ∃ program children call hook,
      parse .builtin "(box:)[(if: 2.50  - -0.5 is   not \"a, b\")[so]]" = .ok program ∧
        Siblings program .hook children ∧ .call call (some hook) ∈ children ∧
        call.label = "(if: 2.5 - -0.5 is not \"a, b\")" ∧
        (∀ arg ∈ call.args, ∀ literal ∈ arg.literals, literal.IsPlain) ∧
        parse .builtin call.label = .ok ⟨[.call call none]⟩ := by
  have hany : (parse .builtin "(box:)[(if: 2.50  - -0.5 is   not \"a, b\")[so]]").toOption.any
      (fun program => program.nodes.any fun outer => outer.hook?.any fun children =>
        children.any (Node.isHookedPlain "(if: 2.5 - -0.5 is not \"a, b\")")) = true := by
    decide +kernel
  cases hparse : parse .builtin "(box:)[(if: 2.50  - -0.5 is   not \"a, b\")[so]]" with
  | error e =>
      rw [hparse] at hany
      cases hany
  | ok program =>
      rw [hparse] at hany
      rcases List.any_eq_true.1 hany with ⟨outer, houter, hhook⟩
      rcases (Option.any_eq_true_iff_get _ _).1 hhook with ⟨hsome, hinner⟩
      rcases List.any_eq_true.1 hinner with ⟨node, hmem, hnode⟩
      have hsiblings : Siblings program .hook (outer.hook?.get hsome) :=
        .inside .top houter (Option.some_get hsome).symm
      unfold Node.isHookedPlain at hnode
      split at hnode
      · rcases Bool.and_eq_true_iff.1 hnode with ⟨hlabel, hplain⟩
        have hplains := of_decide_eq_true hplain
        exact ⟨program, _, _, _, rfl, hsiblings, hmem, eq_of_beq hlabel, hplains,
          parse_label hparse hsiblings hmem hplains⟩
      · cases hnode

end PassageMarkup
