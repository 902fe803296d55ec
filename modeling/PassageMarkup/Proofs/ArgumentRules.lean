/-
Module: PassageMarkup.Proofs.ArgumentRules
Layer: Proofs
Purpose: What the rules of arguments do. On the derivation of a form, with a token behind it that does not go
  on with it, the rule of that form yields what the form stands for; and what a rule takes has a derivation.
  Tokens that stay inside a call are taken to the parenthesis that closes it. The first two forms never look
  beyond such tokens, so what they fail at is never further than the third; hence the arguments of a call are
  those of its whole body, and a call that breaks off fails at the token that breaks it.
Imports: Grammar.Argument, Proofs.ArgumentReading, Proofs.ReaderSound, Proofs.RuleLaws
Main exports: yields_value, yields_expression, yields_keywordArgument, yields_argumentList,
  exists_of_takes_keywordArgument, exists_of_takes_argumentList, yields_arguments, failed_arguments
-/
import PassageMarkup.Grammar.Argument
import PassageMarkup.Proofs.ArgumentReading
import PassageMarkup.Proofs.ReaderSound
import PassageMarkup.Proofs.RuleLaws

namespace PassageMarkup

open Text

/-! ### Forms are taken -/

section Forms

variable {rest : List Token}

theorem failed_value {tokens : List Token} (hminus : ∀ token ∈ tokens.head?, token.isMinus = false)
    (hliteral : ∀ token ∈ tokens.head?, token.literal? = none) :
    Grammar.value tokens = .failed tokens :=
  failed_orElse (failed_map (failed_andThen_left (failed_token hminus) _) _) (failed_take hliteral)
    (Nat.le_refl _)

theorem yields_value (form : ValueForm) (rest : List Token) :
    Grammar.value.Yields (form.tokens ++ rest) form.value rest := by
  cases form with
  | single token value hvalue =>
      have hminus : ∀ other ∈ (token :: rest).head?, other.isMinus = false := by
        rintro other ⟨⟩
        exact Token.isMinus_of_literal? hvalue
      apply (yields_take hvalue).orElse_right
        (failed_map (failed_andThen_left (failed_token hminus) _) _)
      exact Nat.le_succ _
  | negative minus digits value hminus hdigits =>
      exact (((yields_token hminus).andThen (yields_take hdigits)).map _).orElse _

theorem yields_operand (form : ValueForm) (rest : List Token) :
    Grammar.operand.Yields (form.tokens ++ rest) (.value form.value) rest :=
  (yields_value form rest).map Expression.value

theorem yields_arithmetic (form : SideForm) (hrest : EndsSide rest) :
    Grammar.arithmetic.Yields (form.tokens ++ rest) form.expression rest := by
  cases form with
  | bare value =>
      have hnone : ∀ token ∈ rest.head?, token.arithmetic? = none := fun token hmem =>
        if_neg (hrest token hmem)
      have hoptional := yields_optional_none
        (failed_andThen_left (failed_take hnone) Grammar.operand) (Nat.le_refl _)
      exact ((yields_operand value rest).andThen hoptional).map Grammar.joinOperands
  | operation left sign operator hkind htext right =>
      have hsign := Token.arithmetic?_eq_some_iff.2 ⟨hkind, htext⟩
      have hoptional := ((yields_take hsign).andThen (yields_operand right rest)).optional
      rw [SideForm.tokens, List.append_assoc]
      exact ((yields_operand left _).andThen hoptional).map Grammar.joinOperands

theorem yields_expression (form : ExpressionForm) (hrest : EndsExpression rest) :
    Grammar.expression.Yields (form.tokens ++ rest) form.expression rest := by
  cases form with
  | side form =>
      have hnone : ∀ token ∈ rest.head?, token.comparison? = none := by
        intro token hmem
        apply if_neg
        intro hkind
        have hnot := hrest token hmem
        rw [hkind] at hnot
        cases hnot
      have hside := yields_arithmetic form hrest.endsSide
      have hsign := hside.failed_andThen (failed_take hnone) (Nat.le_refl _)
      exact hside.orElse_right (failed_map (failed_andThen_left hsign _) _) (Nat.le_refl _)
  | comparison left sign operator hkind htext right =>
      have hsign := Token.comparison?_eq_some_iff.2 ⟨hkind, htext⟩
      have hends : EndsSide (sign :: (right.tokens ++ rest)) := endsSide_cons _ (by simp [hkind])
      rw [ExpressionForm.tokens, List.append_assoc]
      exact ((((yields_arithmetic left hends).andThen (yields_take hsign)).andThen
        (yields_arithmetic right hrest.endsSide)).map _).orElse _

theorem yields_keywordArgument (form : KeywordForm) (hrest : EndsExpression rest) :
    Grammar.keywordArgument.Yields (form.tokens ++ rest) form.arguments rest := by
  have hkeyword := Token.keyword?_eq_some_iff.2 form.kind_eq
  rw [KeywordForm.tokens, List.append_assoc]
  exact (((yields_operand form.left _).andThen (yields_take hkeyword)).andThen
    (yields_expression form.right hrest)).map _

/-- A comma and an expression, as often as they come. -/
theorem loops_items (form : ItemsForm) {comma : Token} (hcomma : comma.kind = .comma)
    (hrest : EndsExpression rest) (hend : ∀ token ∈ rest.head?, token.kind ≠ .comma) :
    Loops (((Rule.kind .comma).andThen Grammar.expression).map Prod.snd) rest
      (comma :: (form.tokens ++ rest)) form.expressions rest := by
  have hstop := failed_map (failed_andThen_left (failed_kind hend) Grammar.expression) Prod.snd
  induction form generalizing comma with
  | one item =>
      have hitem := ((yields_kind hcomma).andThen (yields_expression item hrest)).map Prod.snd
      exact .step hitem (length_lt_behind ..) (.stop hstop (Nat.le_refl _))
  | more item next hnext others ih =>
      have hends := endsExpression_comma (others.tokens ++ rest) hnext
      have hitem := ((yields_kind hcomma).andThen (yields_expression item hends)).map Prod.snd
      rw [ItemsForm.tokens, List.append_assoc]
      exact .step hitem (length_lt_behind ..) (ih hnext)

theorem yields_argumentList (form : ListForm) (hrest : ∀ token ∈ rest.head?, token.kind = .closeParen) :
    Grammar.argumentList.Yields (form.tokens ++ rest) (.list form.expressions) rest := by
  have hends : EndsExpression rest := fun token hmem => by rw [hrest token hmem]; rfl
  have hend : ∀ token ∈ rest.head?, token.kind ≠ .comma := fun token hmem => by simp [hrest token hmem]
  cases form with
  | empty =>
      have hvalue : Grammar.value rest = .failed rest := failed_value
        (fun token hmem => by simp [Token.isMinus, hrest token hmem])
        (fun token hmem => by simp [Token.literal?, hrest token hmem])
      have hside := failed_map (failed_andThen_left (failed_map hvalue Expression.value)
        ((Rule.take Token.arithmetic?).andThen Grammar.operand).optional) Grammar.joinOperands
      have hitem : Grammar.expression rest = .failed rest :=
        failed_orElse (failed_map (failed_andThen_left (failed_andThen_left hside _) _) _) hside
          (Nat.le_refl _)
      exact ((yields_pure [] rest).orElse_right (failed_map (failed_andThen_left hitem _) _)
        (Nat.le_refl _)).map Arguments.list
  | items form =>
      have hitems : (Grammar.expression.separated (.kind .comma)).Yields (form.tokens ++ rest)
          form.expressions rest := by
        cases form with
        | one item =>
            have hstop := failed_map (failed_andThen_left (failed_kind hend) Grammar.expression) Prod.snd
            have hnone := Loops.stop hstop (Nat.le_refl _)
            exact ((yields_expression item hends).andThen hnone.stalls_many.yields).map _
        | more item comma hcomma others =>
            have hmore := loops_items others hcomma hends hend
            have hfirst := yields_expression item (endsExpression_comma (others.tokens ++ rest) hcomma)
            rw [ItemsForm.tokens, List.append_assoc]
            exact (hfirst.andThen hmore.stalls_many.yields).map _
      exact (hitems.orElse _).map Arguments.list

end Forms

/-! ### What is taken has a form -/

section Derivations

variable {tokens rest : List Token}

theorem exists_of_takes_value {value : Literal} (h : Grammar.value.Takes tokens value rest) :
    ∃ form : ValueForm, form.tokens ++ rest = tokens := by
  rcases takes_orElse h with hnegative | hsingle
  · rcases takes_map hnegative with ⟨⟨minus, number⟩, hboth, rfl⟩
    rcases takes_andThen hboth with ⟨middle, hminus, hdigits⟩
    rcases takes_token hminus with ⟨rfl, hsign⟩
    rcases takes_take hdigits with ⟨digits, rfl, hvalue⟩
    exact ⟨.negative minus digits number hsign hvalue, rfl⟩
  · rcases takes_take hsingle with ⟨token, rfl, hvalue⟩
    exact ⟨.single token value hvalue, rfl⟩

theorem exists_of_takes_operand {expression : Expression}
    (h : Grammar.operand.Takes tokens expression rest) : ∃ form : ValueForm, form.tokens ++ rest = tokens := by
  rcases takes_map h with ⟨value, hvalue, _⟩
  exact exists_of_takes_value hvalue

theorem exists_of_takes_arithmetic {expression : Expression}
    (h : Grammar.arithmetic.Takes tokens expression rest) :
    ∃ form : SideForm, form.tokens ++ rest = tokens := by
  rcases takes_map h with ⟨⟨first, more⟩, hboth, _⟩
  rcases takes_andThen hboth with ⟨middle, hleft, hmore⟩
  rcases exists_of_takes_operand hleft with ⟨left, rfl⟩
  rcases takes_optional hmore with ⟨⟨operator, second⟩, _, hoperation⟩ | ⟨_, rfl⟩
  · rcases takes_andThen hoperation with ⟨behind, hsign, hright⟩
    rcases takes_take hsign with ⟨sign, rfl, hoperator⟩
    rcases exists_of_takes_operand hright with ⟨right, rfl⟩
    rcases Token.arithmetic?_eq_some_iff.1 hoperator with ⟨hkind, htext⟩
    exact ⟨.operation left sign operator hkind htext right, List.append_assoc _ _ _⟩
  · exact ⟨.bare left, rfl⟩

theorem exists_of_takes_expression {expression : Expression}
    (h : Grammar.expression.Takes tokens expression rest) :
    ∃ form : ExpressionForm, form.tokens ++ rest = tokens := by
  rcases takes_orElse h with hcomparison | hside
  · rcases takes_map hcomparison with ⟨⟨⟨first, operator⟩, second⟩, hall, _⟩
    rcases takes_andThen hall with ⟨behind, hboth, hright⟩
    rcases takes_andThen hboth with ⟨middle, hleft, hsign⟩
    rcases exists_of_takes_arithmetic hleft with ⟨left, rfl⟩
    rcases takes_take hsign with ⟨sign, rfl, hoperator⟩
    rcases exists_of_takes_arithmetic hright with ⟨right, rfl⟩
    rcases Token.comparison?_eq_some_iff.1 hoperator with ⟨hkind, htext⟩
    exact ⟨.comparison left sign operator hkind htext right, List.append_assoc _ _ _⟩
  · rcases exists_of_takes_arithmetic hside with ⟨form, rfl⟩
    exact ⟨.side form, rfl⟩

theorem exists_of_takes_keywordArgument {arguments : Arguments}
    (h : Grammar.keywordArgument.Takes tokens arguments rest) :
    ∃ form : KeywordForm, form.tokens ++ rest = tokens := by
  rcases takes_map h with ⟨⟨⟨first, keyword⟩, second⟩, hall, _⟩
  rcases takes_andThen hall with ⟨behind, hboth, hright⟩
  rcases takes_andThen hboth with ⟨middle, hleft, hword⟩
  rcases exists_of_takes_operand hleft with ⟨left, rfl⟩
  rcases takes_take hword with ⟨word, rfl, hkeyword⟩
  rcases exists_of_takes_expression hright with ⟨right, rfl⟩
  exact ⟨⟨left, word, keyword, Token.keyword?_eq_some_iff.1 hkeyword, right⟩, List.append_assoc _ _ _⟩

/-- Commas with expressions behind them are the rest of a list. -/
theorem exists_of_takes_items {tokens rest : List Token} {values : List Expression}
    (h : (((Rule.kind .comma).andThen Grammar.expression).map Prod.snd).many.Takes tokens values rest) :
    rest = tokens ∨ ∃ (comma : Token) (form : ItemsForm), comma.kind = .comma ∧
      comma :: (form.tokens ++ rest) = tokens := by
  rcases takes_many h with ⟨_, hrest⟩ | ⟨value, others, middle, _, hitem, hshorter, hothers⟩
  · exact .inl hrest
  · rcases takes_map hitem with ⟨⟨comma, expression⟩, hboth, _⟩
    rcases takes_andThen hboth with ⟨behind, hcomma, hexpression⟩
    rcases takes_kind hcomma with ⟨rfl, hkind⟩
    rcases exists_of_takes_expression hexpression with ⟨item, rfl⟩
    rcases exists_of_takes_items hothers with rfl | ⟨next, form, hnext, rfl⟩
    · exact .inr ⟨comma, .one item, hkind, rfl⟩
    · exact .inr ⟨comma, .more item next hnext form, hkind, by simp [ItemsForm.tokens]⟩
termination_by tokens.length

theorem exists_of_takes_argumentList {arguments : Arguments}
    (h : Grammar.argumentList.Takes tokens arguments rest) :
    ∃ form : ListForm, form.tokens ++ rest = tokens := by
  rcases takes_map h with ⟨values, hlist, _⟩
  rcases takes_orElse hlist with hitems | ⟨_, hnone⟩
  · rcases takes_map hitems with ⟨⟨first, others⟩, hboth, _⟩
    rcases takes_andThen hboth with ⟨middle, hfirst, hothers⟩
    rcases exists_of_takes_expression hfirst with ⟨item, rfl⟩
    rcases exists_of_takes_items hothers with rfl | ⟨comma, form, hcomma, rfl⟩
    · exact ⟨.items (.one item), rfl⟩
    · exact ⟨.items (.more item comma hcomma form), by simp [ListForm.tokens, ItemsForm.tokens]⟩
  · cases hnone
    exact ⟨.empty, rfl⟩

end Derivations

/-! ### The first two forms look at plain tokens only -/

theorem isPlain_of_kind {token : Token} {kind : Kind} (h : token.kind = kind)
    (hkind : (!kind.isBracket && kind != .callHead && kind != .closeParen) = true) :
    token.isPlain = true := by
  rw [Token.isPlain, h]
  exact hkind

theorem staysPlain_value : Grammar.value.StaysIn fun token => token.isPlain = true := by
  apply Rule.StaysIn.orElse
  · apply Rule.StaysIn.map
    apply Rule.StaysIn.andThen
    · exact staysIn_token fun token h => isPlain_of_kind (Token.kind_of_isMinus h) rfl
    · exact staysIn_take fun token value h => isPlain_of_kind (Token.kind_of_number? h) rfl
  · apply staysIn_take
    intro token value h
    apply isPlain_of_kind (Token.kind_of_literal? h)
    cases value <;> rfl

theorem staysPlain_operand : Grammar.operand.StaysIn fun token => token.isPlain = true :=
  staysPlain_value.map _

theorem staysPlain_arithmetic : Grammar.arithmetic.StaysIn fun token => token.isPlain = true := by
  have hsign : (Rule.take Token.arithmetic?).StaysIn fun token => token.isPlain = true :=
    staysIn_take fun token value h => isPlain_of_kind (Token.arithmetic?_eq_some_iff.1 h).1 rfl
  exact (staysPlain_operand.andThen (hsign.andThen staysPlain_operand).optional).map _

theorem staysPlain_expression : Grammar.expression.StaysIn fun token => token.isPlain = true := by
  have hsign : (Rule.take Token.comparison?).StaysIn fun token => token.isPlain = true :=
    staysIn_take fun token value h => isPlain_of_kind (Token.comparison?_eq_some_iff.1 h).1 rfl
  exact (((staysPlain_arithmetic.andThen hsign).andThen staysPlain_arithmetic).map _).orElse
    staysPlain_arithmetic

theorem staysPlain_keywordArgument :
    Grammar.keywordArgument.StaysIn fun token => token.isPlain = true := by
  have hword : (Rule.take Token.keyword?).StaysIn fun token => token.isPlain = true := by
    apply staysIn_take
    intro token keyword h
    apply isPlain_of_kind (Token.keyword?_eq_some_iff.1 h)
    cases keyword <;> rfl
  exact ((staysPlain_operand.andThen hword).andThen staysPlain_expression).map _

theorem staysPlain_argumentList : Grammar.argumentList.StaysIn fun token => token.isPlain = true := by
  have hcomma : (Rule.kind .comma).StaysIn fun token => token.isPlain = true :=
    staysIn_token fun token h => isPlain_of_kind (eq_of_beq h) rfl
  exact ((staysPlain_expression.separated hcomma).orElse (staysIn_pure [])).map _

/-! ### Tokens inside a call -/

/-- An element is a plain token, or an inner call in which the elements are shorter. -/
theorem element_eq (tokens : List Token) : Grammar.element tokens =
    ((Rule.token Token.isPlain).map fun _ => ()).orElse
      ((((Rule.kind .callHead).andThen (Rule.below tokens.length Grammar.element).many).andThen
        (.kind .closeParen)).map fun _ => ()) tokens :=
  Rule.recursive_eq _ tokens

/-- Nothing in front of which an element could stand. -/
def EndsElements (rest : List Token) : Prop :=
  ∀ token ∈ rest.head?, token.isPlain = false ∧ token.kind ≠ .callHead

theorem endsElements_close {closing : Token} (h : closing.kind = .closeParen) (rest : List Token) :
    EndsElements (closing :: rest) := by
  rintro token ⟨⟩
  simp [Token.isPlain, h]

theorem failed_element {rest : List Token} (h : EndsElements rest) :
    Grammar.element rest = .failed rest := by
  rw [element_eq]
  apply failed_orElse
  · exact failed_map (failed_token fun token hmem => (h token hmem).1) _
  · exact failed_map (failed_andThen_left
      (failed_andThen_left (failed_kind fun token hmem => (h token hmem).2) _) _) _
  · exact Nat.le_refl _

/-- Behind the head of an inner call the repetition of elements is the same. -/
theorem loops_below (head : Token) {tokens rest : List Token} {stuck : Fault} {values : List Unit}
    (h : Loops Grammar.element stuck tokens values rest) :
    Loops (Rule.below (head :: tokens).length Grammar.element) stuck tokens values rest :=
  h.of_agrees (agrees_below (Nat.lt_succ_self _)) (Nat.le_refl _)

theorem failed_plain_head {head : Token} (hhead : head.kind = .callHead) (tokens : List Token) :
    ((Rule.token Token.isPlain).map fun _ => ()) (head :: tokens) = .failed (head :: tokens) := by
  apply failed_map (failed_token _) _
  rintro token ⟨⟩
  simp [Token.isPlain, hhead]

/-- What the tokens of an element or of elements do in front of any others. -/
def TakenInside : Symbol → List Token → Prop
  | .element, tokens => tokens ≠ [] ∧ ∀ more, Grammar.element.Yields (tokens ++ more) () more
  | .elements, tokens => ∀ stuck tail values rest, Loops Grammar.element stuck tail values rest →
      ∃ all, Loops Grammar.element stuck (tokens ++ tail) all rest
  | _, _ => True

theorem takenInside_nested {head closing : Token} {body : List Token} (hhead : head.kind = .callHead)
    (hbody : TakenInside .elements body) (hclosing : closing.kind = .closeParen) :
    TakenInside .element (head :: (body ++ [closing])) := by
  refine ⟨List.cons_ne_nil _ _, ?_⟩
  intro more
  have hstop := failed_element (endsElements_close hclosing more)
  rcases hbody _ _ _ _ (.stop hstop (Nat.le_refl _)) with ⟨values, hloops⟩
  have hmany := (loops_below head hloops).stalls_many.yields
  have hnested := (((yields_kind hhead).andThen hmany).andThen (yields_kind hclosing)).map fun _ => ()
  have htokens : head :: (body ++ [closing]) ++ more = head :: (body ++ closing :: more) := by simp
  rw [htokens]
  exact (hnested.orElse_right (failed_plain_head hhead _) (by simp; omega)).of_eq (element_eq _)

theorem takenInside_of_derives {symbol : Symbol} {tokens : List Token} (h : Derives symbol tokens) :
    TakenInside symbol tokens := by
  induction h with
  | elementsNil => exact fun stuck tail values rest htail => ⟨values, htail⟩
  | @elementsCons element others _ _ ihElement ihRest =>
      intro stuck tail values rest htail
      rcases ihRest stuck tail values rest htail with ⟨all, hloops⟩
      rcases ihElement with ⟨hne, helement⟩
      rw [List.append_assoc]
      refine ⟨() :: all, .step (helement _) ?_ hloops⟩
      have hpos := List.length_pos_iff.2 hne
      simp only [List.length_append]
      omega
  | @elementPlain token hbracket hhead hclosing =>
      refine ⟨List.cons_ne_nil _ _, ?_⟩
      intro more
      have hplain : token.isPlain = true := by simp [Token.isPlain, hbracket, hhead, hclosing]
      exact (((yields_token hplain).map fun _ => ()).orElse _).of_eq (element_eq _)
  | elementNested hhead _ hclosing ih => exact takenInside_nested hhead ih hclosing
  | _ => trivial

/-- Where the elements of a call break off: `stuck` itself, or an inner call that fails there. -/
structure BreaksOff (tail stuck : List Token) : Prop where
  failed : Grammar.element tail = .failed stuck
  beyond : stuck.length < tail.length ∨ tail = stuck
  open_ : ∀ token ∈ tail.head?, token.kind ≠ .closeParen

theorem BreaksOff.length_le {tail stuck : List Token} (h : BreaksOff tail stuck) :
    stuck.length ≤ tail.length :=
  length_le_of_beyond h.beyond

/-- Where elements break off, no closing parenthesis follows. -/
theorem BreaksOff.failed_close {α : Type} {first : Rule α} {value : α} {tokens tail stuck : List Token}
    (h : BreaksOff tail stuck) (hfirst : first.Stalls tokens value tail stuck) :
    first.andThen (.kind .closeParen) tokens = .failed stuck :=
  hfirst.failed_andThen (failed_kind h.open_) h.beyond

/-- An open inner call fails where its elements break off. -/
theorem BreaksOff.nested {head : Token} {body tail stuck : List Token} (h : BreaksOff tail stuck)
    (hhead : head.kind = .callHead) (hbody : Derives .elements body) :
    BreaksOff (head :: (body ++ tail)) stuck := by
  have hle := h.length_le
  have hlength : stuck.length < (head :: (body ++ tail)).length :=
    Nat.lt_of_le_of_lt hle (length_lt_behind ..)
  refine ⟨?_, .inl hlength, ?_⟩
  · rcases takenInside_of_derives hbody _ _ _ _ (.stop h.failed hle) with ⟨values, hloops⟩
    have hmany := (yields_kind hhead).andThen_stalls (loops_below head hloops).stalls_many
    have hnested := hmany.failed_andThen (failed_kind h.open_) h.beyond
    rw [element_eq]
    exact failed_orElse (failed_plain_head hhead _) (failed_map hnested _) (Nat.le_of_lt hlength)
  · rintro token ⟨⟩
    simp [hhead]

/-- The elements of a call that breaks off are taken to where the outermost open call in it starts. -/
theorem loops_of_openElements {inner : Nat} {before : List Token} (h : OpenElements inner before) :
    ∀ {tail stuck : List Token}, BreaksOff tail stuck → ∃ values rest,
      Loops Grammar.element stuck (before ++ tail) values rest ∧ BreaksOff rest stuck := by
  induction h with
  | level hbody =>
      intro tail stuck htail
      rcases takenInside_of_derives hbody _ _ _ _ (.stop htail.failed htail.length_le) with ⟨values, hloops⟩
      exact ⟨values, tail, hloops, htail⟩
  | nested _ hhead hbody ih =>
      intro tail stuck htail
      rcases ih (htail.nested hhead hbody) with ⟨values, rest, hloops, hrest⟩
      refine ⟨values, rest, ?_, hrest⟩
      rw [List.append_assoc, List.cons_append]
      exact hloops

/-! ### The arguments of a call -/

section Arguments

variable {body rest : List Token} {closing : Token}

/-- Tokens that stay inside a call are taken up to the parenthesis that closes it. -/
theorem yields_closed_unparsed (hbody : Derives .elements body) (hclosing : closing.kind = .closeParen)
    (rest : List Token) :
    (Grammar.closed Grammar.unparsed).Yields (body ++ closing :: rest) (.unparsed, closing) rest := by
  have hstop := failed_element (endsElements_close hclosing rest)
  rcases takenInside_of_derives hbody _ _ _ _ (.stop hstop (Nat.le_refl _)) with ⟨values, hloops⟩
  exact (hloops.stalls_many.yields.map _).andThen (yields_kind hclosing)

theorem derives_of_isPlain {tokens : List Token} (h : ∀ token ∈ tokens, token.isPlain = true) :
    Derives .elements tokens := by
  induction tokens with
  | nil => exact .elementsNil
  | cons token tokens ih =>
      rcases List.forall_mem_cons.1 h with ⟨hplain, hothers⟩
      simp only [Token.isPlain, Bool.and_eq_true, Bool.not_eq_true', bne_iff_ne] at hplain
      rcases hplain with ⟨⟨hbracket, hhead⟩, hclosing⟩
      exact .elementsCons (.elementPlain hbracket hhead hclosing) (ih hothers)

/-- A form that looks at plain tokens only and takes a closing parenthesis behind them ends where the call
does. -/
theorem takes_closed {form : Rule Arguments} {tokens behind : List Token} {pair : Arguments × Token}
    (hstays : form.StaysIn fun token => token.isPlain = true)
    (h : (Grammar.closed form).Takes tokens pair behind) :
    ∃ front, form.Takes tokens pair.1 (pair.2 :: behind) ∧ tokens = front ++ pair.2 :: behind ∧
      pair.2.kind = .closeParen ∧ Derives .elements front := by
  rcases takes_andThen h with ⟨middle, hform, hclose⟩
  rcases takes_kind hclose with ⟨rfl, hkind⟩
  rcases hform with ⟨spare, htaken⟩
  have hanswer := hstays tokens
  rw [htaken] at hanswer
  cases hanswer with
  | taken hrest _ =>
      rcases hrest with ⟨front, hparts, hfront⟩
      exact ⟨front, ⟨spare, htaken⟩, hparts, hkind, derives_of_isPlain hfront⟩

/-- A form that fails with its closing parenthesis does so no further than at the first token that is not
plain. -/
theorem length_le_of_failed_closed {form : Rule Arguments} {before behind fault : List Token}
    (hstays : form.StaysIn fun token => token.isPlain = true)
    (hbehind : ∀ token ∈ behind.head?, token.isPlain = false)
    (h : Grammar.closed form (before ++ behind) = .failed fault) : behind.length ≤ fault.length := by
  have hpassed : Passes (fun token => token.isPlain = true) (before ++ behind) fault := by
    have hanswer := hstays (before ++ behind)
    rw [Grammar.closed, Rule.andThen] at h
    cases hform : form (before ++ behind) with
    | failed place =>
        rw [hform] at h hanswer
        cases h
        cases hanswer with
        | failed hfault => exact hfault
    | taken value middle spare =>
        rw [hform] at h hanswer
        simp only at h
        split at h
        · cases h
        · next place hclose =>
          cases h
          cases hanswer with
          | taken hmiddle hspare => exact further_stays hspare (eq_of_failed_take hclose ▸ hmiddle)
  exact hpassed.length_le fun token hmem => by simp [hbehind token hmem]

/-- A form that does not take just the body of a call fails, and not beyond the call. -/
theorem exists_failed_closed {form : Rule Arguments} (hstays : form.StaysIn fun token => token.isPlain = true)
    (hbody : Derives .elements body) (hclosing : closing.kind = .closeParen)
    (hnot : ∀ value, ¬ form.Takes (body ++ closing :: rest) value (closing :: rest)) :
    ∃ fault, Grammar.closed form (body ++ closing :: rest) = .failed fault ∧ rest.length ≤ fault.length := by
  cases hanswer : Grammar.closed form (body ++ closing :: rest) with
  | failed fault =>
      have hbehind : ∀ token ∈ (closing :: rest).head?, token.isPlain = false :=
        fun token hmem => (endsElements_close hclosing rest token hmem).1
      have hle := length_le_of_failed_closed hstays hbehind hanswer
      exact ⟨fault, rfl, Nat.le_of_succ_le hle⟩
  | taken pair behind spare =>
      rcases takes_closed hstays ⟨spare, hanswer⟩ with ⟨front, hform, hparts, hkind, hfront⟩
      -- the call is closed by one parenthesis only
      have hother := (yields_closed_unparsed hfront hkind behind).takes
      rw [← hparts] at hother
      rcases hother.unique (yields_closed_unparsed hbody hclosing rest).takes with ⟨hpair, rfl⟩
      rw [(Prod.ext_iff.1 hpair).2] at hform
      exact absurd hform (hnot pair.1)

/-- The arguments of a call are those of its body, and nothing has failed beyond the call. -/
theorem yields_arguments (hbody : Derives .elements body) (hclosing : closing.kind = .closeParen)
    (rest : List Token) :
    Grammar.arguments.Yields (body ++ closing :: rest) (Arguments.ofTokens body, closing) rest := by
  have hends : EndsExpression (closing :: rest) := endsExpression_cons _ (by rw [hclosing]; rfl)
  have hclose : ∀ token ∈ (closing :: rest).head?, token.kind = .closeParen := by
    rintro token ⟨⟩
    exact hclosing
  by_cases hkeyword : ∃ form : KeywordForm, form.tokens = body
  · rcases hkeyword with ⟨form, rfl⟩
    rw [Arguments.ofTokens_keyword]
    exact ((yields_keywordArgument form hends).andThen (yields_kind hclosing)).orElse _
  have hnoKeyword : ∀ value, ¬ Grammar.keywordArgument.Takes (body ++ closing :: rest) value
      (closing :: rest) := by
    intro value htakes
    rcases exists_of_takes_keywordArgument htakes with ⟨form, hparts⟩
    exact hkeyword ⟨form, List.append_cancel_right hparts⟩
  rcases exists_failed_closed staysPlain_keywordArgument hbody hclosing hnoKeyword with
    ⟨fault, hfirst, hfault⟩
  by_cases hlist : ∃ form : ListForm, form.tokens = body
  · rcases hlist with ⟨form, rfl⟩
    rw [Arguments.ofTokens_list]
    exact (((yields_argumentList form hclose).andThen (yields_kind hclosing)).orElse _).orElse_right
      hfirst hfault
  have hnoList : ∀ value, ¬ Grammar.argumentList.Takes (body ++ closing :: rest) value
      (closing :: rest) := by
    intro value htakes
    rcases exists_of_takes_argumentList htakes with ⟨form, hparts⟩
    exact hlist ⟨form, List.append_cancel_right hparts⟩
  rcases exists_failed_closed staysPlain_argumentList hbody hclosing hnoList with
    ⟨other, hsecond, hother⟩
  have hunparsed := Arguments.ofTokens_eq_unparsed_iff.2
    ⟨not_exists.1 hkeyword, not_exists.1 hlist⟩
  rw [hunparsed]
  exact ((yields_closed_unparsed hbody hclosing rest).orElse_right hsecond hother).orElse_right hfirst hfault

/-- A form that looks at plain tokens only fails where tokens that stay inside the call do, and not further. -/
theorem exists_failed_closed_of_open {form : Rule Arguments} {before stuck : List Token}
    (hstays : form.StaysIn fun token => token.isPlain = true)
    (hstuck : ∀ token ∈ stuck.head?, token.isPlain = false)
    (hfailed : Grammar.closed Grammar.unparsed (before ++ stuck) = .failed stuck) :
    ∃ fault, Grammar.closed form (before ++ stuck) = .failed fault ∧ stuck.length ≤ fault.length := by
  cases hanswer : Grammar.closed form (before ++ stuck) with
  | failed fault => exact ⟨fault, rfl, length_le_of_failed_closed hstays hstuck hanswer⟩
  | taken pair behind spare =>
      rcases takes_closed hstays ⟨spare, hanswer⟩ with ⟨front, _, hparts, hkind, hfront⟩
      have hunparsed := (yields_closed_unparsed hfront hkind behind).takes
      rw [← hparts] at hunparsed
      exact absurd hfailed hunparsed.not_failed

/-- The arguments of a call that is open fail at the bracket that breaks it, or at the end. -/
theorem failed_arguments {inner : Nat} {before stuck : List Token} (h : OpenElements inner before)
    (hstuck : ∀ token ∈ stuck.head?, token.kind.isBracket = true) :
    Grammar.arguments (before ++ stuck) = .failed stuck := by
  have hplain : ∀ token ∈ stuck.head?, token.isPlain = false := fun token hmem => by
    simp [Token.isPlain, hstuck token hmem]
  have hne : ∀ {kind : Kind}, kind.isBracket = false → ∀ token ∈ stuck.head?, token.kind ≠ kind := by
    rintro kind hkind token hmem rfl
    rw [hstuck token hmem] at hkind
    cases hkind
  have hbreaks : BreaksOff stuck stuck :=
    ⟨failed_element fun token hmem => ⟨hplain token hmem, hne rfl token hmem⟩, .inr rfl, hne rfl⟩
  rcases loops_of_openElements h hbreaks with ⟨values, rest, hloops, hrest⟩
  have hfailed : Grammar.closed Grammar.unparsed (before ++ stuck) = .failed stuck :=
    hrest.failed_close (hloops.stalls_many.map _)
  rcases exists_failed_closed_of_open staysPlain_keywordArgument hplain hfailed with ⟨_, hfirst, hfault⟩
  rcases exists_failed_closed_of_open staysPlain_argumentList hplain hfailed with ⟨_, hsecond, hother⟩
  exact failed_orElse hfirst (failed_orElse hsecond hfailed hother) hfault

end Arguments

end PassageMarkup
