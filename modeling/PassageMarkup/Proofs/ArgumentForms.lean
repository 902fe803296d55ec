/-
Module: PassageMarkup.Proofs.ArgumentForms
Layer: Proofs
Purpose: The forms that the arguments of a call may have, as derivations over tokens.
    value       is a token that is a literal, or a minus sign and a number that can be read;
    side        is a value, or two values with an arithmetic operator between them;
    expression  is a side, or two sides with a comparison between them;
    a keyword form is a value, a keyword and an expression; a list form is nothing, or expressions with
    commas between them.
  Two derivations are the same if their tokens are, because the kind of the token behind a part decides
  where the part ends; and no tokens have both forms.
Imports: Grammar.Expression
Main exports: ValueForm, SideForm, ExpressionForm, KeywordForm, ItemsForm, ListForm, EndsExpression,
  ExpressionForm.append_inj, KeywordForm.tokens_inj, ListForm.tokens_inj, KeywordForm.tokens_ne
-/
import PassageMarkup.Grammar.Expression

namespace PassageMarkup

open Text Number

/-! ### Derivations -/

/-- A value: a token that is a literal by itself, or a minus sign and a number. -/
inductive ValueForm where
  | single (token : Token) (value : Literal) (hvalue : token.literal? = some value)
  | negative (minus digits : Token) (value : Binary64) (hminus : minus.isMinus = true)
      (hdigits : digits.number? = some value)

/-- One side of a comparison: a value, or an operation on two values. -/
inductive SideForm where
  | bare (value : ValueForm)
  | operation (left : ValueForm) (sign : Token) (operator : ArithmeticOperator)
      (hkind : sign.kind = .arithmetic) (htext : sign.text = operator.symbol) (right : ValueForm)

/-- An expression: a side, or a comparison of two sides. -/
inductive ExpressionForm where
  | side (form : SideForm)
  | comparison (left : SideForm) (sign : Token) (operator : ComparisonOperator)
      (hkind : sign.kind = .comparison) (htext : squeeze sign.text = operator.symbol) (right : SideForm)

/-- The kind of token that a keyword is. -/
def Keyword.kind : Keyword → Kind
  | .to => .keyword
  | .arrow => .linkArrow

/-- A keyword argument: a value, the keyword and an expression. -/
structure KeywordForm where
  left : ValueForm
  word : Token
  keyword : Keyword
  kind_eq : word.kind = keyword.kind
  right : ExpressionForm

/-- Expressions with commas between them, at least one. -/
inductive ItemsForm where
  | one (item : ExpressionForm)
  | more (item : ExpressionForm) (comma : Token) (hcomma : comma.kind = .comma) (others : ItemsForm)

/-- A list of arguments, which may be empty. -/
inductive ListForm where
  | empty
  | items (form : ItemsForm)

/-- The tokens of a value. -/
def ValueForm.tokens : ValueForm → List Token
  | .single token _ _ => [token]
  | .negative minus digits _ _ _ => [minus, digits]

/-- What a value stands for. -/
def ValueForm.value : ValueForm → Literal
  | .single _ value _ => value
  | .negative _ _ value _ _ => .number value.negate

/-- The tokens of a side. -/
def SideForm.tokens : SideForm → List Token
  | .bare value => value.tokens
  | .operation left sign _ _ _ right => left.tokens ++ sign :: right.tokens

/-- What a side stands for. -/
def SideForm.expression : SideForm → Expression
  | .bare value => .value value.value
  | .operation left _ operator _ _ right => .arithmetic operator (.value left.value) (.value right.value)

/-- The tokens of an expression. -/
def ExpressionForm.tokens : ExpressionForm → List Token
  | .side form => form.tokens
  | .comparison left sign _ _ _ right => left.tokens ++ sign :: right.tokens

/-- What an expression stands for. -/
def ExpressionForm.expression : ExpressionForm → Expression
  | .side form => form.expression
  | .comparison left _ operator _ _ right => .comparison operator left.expression right.expression

/-- The tokens of a keyword argument. -/
def KeywordForm.tokens (form : KeywordForm) : List Token :=
  form.left.tokens ++ form.word :: form.right.tokens

/-- What a keyword argument stands for. -/
def KeywordForm.arguments (form : KeywordForm) : Arguments :=
  .keyword form.keyword (.value form.left.value) form.right.expression

/-- The tokens of expressions and the commas between them. -/
def ItemsForm.tokens : ItemsForm → List Token
  | .one item => item.tokens
  | .more item comma _ others => item.tokens ++ comma :: others.tokens

/-- What expressions with commas between them stand for. -/
def ItemsForm.expressions : ItemsForm → List Expression
  | .one item => [item.expression]
  | .more item _ _ others => item.expression :: others.expressions

/-- The tokens of a list of arguments. -/
def ListForm.tokens : ListForm → List Token
  | .empty => []
  | .items form => form.tokens

/-- What a list of arguments stands for. -/
def ListForm.expressions : ListForm → List Expression
  | .empty => []
  | .items form => form.expressions

/-! ### Tokens of derivations -/

/-- The kind of token that a literal is. -/
def Literal.kind : Literal → Kind
  | .string _ => .string
  | .number _ => .number
  | .boolean _ => .boolean
  | .time _ => .time
  | .variable _ => .variable

theorem Token.kind_of_literal? {token : Token} {value : Literal} (h : token.literal? = some value) :
    token.kind = value.kind := by
  unfold Token.literal? at h
  split at h
  · next hkind =>
    cases h
    exact hkind
  · next hkind =>
    rcases Option.map_eq_some_iff.1 h with ⟨number, _, rfl⟩
    exact hkind
  · next hkind =>
    cases h
    exact hkind
  · next hkind =>
    cases h
    exact hkind
  · next hkind =>
    cases h
    exact hkind
  · cases h

theorem Token.kind_of_isMinus {token : Token} (h : token.isMinus = true) : token.kind = .arithmetic := by
  rw [Token.isMinus, Bool.and_eq_true] at h
  exact eq_of_beq h.1

theorem Token.kind_of_number? {token : Token} {value : Binary64} (h : token.number? = some value) :
    token.kind = .number := by
  unfold Token.number? at h
  split at h
  · next hkind => exact hkind
  · cases h

/-- A literal token is no minus sign. -/
theorem Token.isMinus_of_literal? {token : Token} {value : Literal} (h : token.literal? = some value) :
    token.isMinus = false := by
  rw [Bool.eq_false_iff]
  intro hminus
  have hkind := kind_of_literal? h
  rw [kind_of_isMinus hminus] at hkind
  cases value <;> cases hkind

theorem ArithmeticOperator.symbol_inj {operator other : ArithmeticOperator}
    (h : operator.symbol = other.symbol) : operator = other := by
  revert h
  cases operator <;> cases other <;> decide

theorem ComparisonOperator.symbol_inj {operator other : ComparisonOperator}
    (h : operator.symbol = other.symbol) : operator = other := by
  revert h
  cases operator <;> cases other <;> decide

theorem Keyword.kind_inj {keyword other : Keyword} (h : keyword.kind = other.kind) : keyword = other := by
  revert h
  cases keyword <;> cases other <;> decide

/-- No value has a comma among its tokens. -/
theorem ValueForm.not_comma (form : ValueForm) : ∀ token ∈ form.tokens, token.kind ≠ .comma := by
  intro token hmem hcomma
  cases form with
  | single other value hvalue =>
      obtain rfl := List.mem_singleton.1 hmem
      have hkind := Token.kind_of_literal? hvalue
      rw [hcomma] at hkind
      cases value <;> cases hkind
  | negative minus digits value hminus hdigits =>
      rcases List.mem_cons.1 hmem with rfl | hmem
      · cases hcomma.symm.trans (Token.kind_of_isMinus hminus)
      · obtain rfl := List.mem_singleton.1 hmem
        cases hcomma.symm.trans (Token.kind_of_number? hdigits)

theorem SideForm.not_comma (form : SideForm) : ∀ token ∈ form.tokens, token.kind ≠ .comma := by
  cases form with
  | bare value => exact value.not_comma
  | operation left sign operator hkind htext right =>
      rw [tokens, List.forall_mem_append, List.forall_mem_cons]
      exact ⟨left.not_comma, by simp [hkind], right.not_comma⟩

theorem ExpressionForm.not_comma (form : ExpressionForm) : ∀ token ∈ form.tokens, token.kind ≠ .comma := by
  cases form with
  | side form => exact form.not_comma
  | comparison left sign operator hkind htext right =>
      rw [tokens, List.forall_mem_append, List.forall_mem_cons]
      exact ⟨left.not_comma, by simp [hkind], right.not_comma⟩

theorem ValueForm.tokens_ne_nil (form : ValueForm) : form.tokens ≠ [] := by
  cases form <;> simp [tokens]

/-! ### Where a derivation ends -/

/-- The kinds of token that go on with an expression: behind them more of it is to come. -/
def Kind.isOperator (kind : Kind) : Bool :=
  kind == .arithmetic || kind == .comparison

/-- Behind a value with these tokens behind it a side ends. -/
def EndsSide (rest : List Token) : Prop :=
  ∀ token ∈ rest.head?, token.kind ≠ .arithmetic

/-- Behind a side with these tokens behind it an expression ends. -/
def EndsExpression (rest : List Token) : Prop :=
  ∀ token ∈ rest.head?, token.kind.isOperator = false

theorem endsSide_cons {token : Token} (rest : List Token) (h : token.kind ≠ .arithmetic) :
    EndsSide (token :: rest) := by
  simpa [EndsSide] using h

theorem endsExpression_nil : EndsExpression [] := by
  simp [EndsExpression]

theorem endsExpression_cons {token : Token} (rest : List Token) (h : token.kind.isOperator = false) :
    EndsExpression (token :: rest) := by
  simpa [EndsExpression] using h

theorem EndsExpression.endsSide {rest : List Token} (h : EndsExpression rest) : EndsSide rest := by
  intro token htoken hkind
  have hnot := h token htoken
  rw [hkind] at hnot
  cases hnot

theorem EndsSide.ne_cons {rest later : List Token} {token : Token} (h : EndsSide rest)
    (hkind : token.kind = .arithmetic) : rest ≠ token :: later := by
  rintro rfl
  exact h token rfl hkind

theorem EndsExpression.ne_cons {rest later : List Token} {token : Token} (h : EndsExpression rest)
    (hkind : token.kind.isOperator = true) : rest ≠ token :: later := by
  rintro rfl
  have hnot := h token rfl
  rw [hkind] at hnot
  cases hnot

section Unique

variable {rest other : List Token}

/-- The first token of a value tells where it ends. -/
theorem ValueForm.append_inj {form form' : ValueForm} (h : form.tokens ++ rest = form'.tokens ++ other) :
    form = form' ∧ rest = other := by
  cases form with
  | single token value hvalue =>
      cases form' with
      | single token' value' hvalue' =>
          obtain ⟨rfl, hrest⟩ := List.cons.inj h
          obtain rfl := Option.some.inj (hvalue.symm.trans hvalue')
          exact ⟨rfl, hrest⟩
      | negative minus digits value' hminus hdigits =>
          obtain ⟨rfl, _⟩ := List.cons.inj h
          rw [Token.isMinus_of_literal? hvalue] at hminus
          cases hminus
  | negative minus digits value hminus hdigits =>
      cases form' with
      | single token' value' hvalue' =>
          obtain ⟨rfl, _⟩ := List.cons.inj h
          rw [Token.isMinus_of_literal? hvalue'] at hminus
          cases hminus
      | negative minus' digits' value' hminus' hdigits' =>
          obtain ⟨rfl, hlater⟩ := List.cons.inj h
          obtain ⟨rfl, hrest⟩ := List.cons.inj hlater
          obtain rfl := Option.some.inj (hdigits.symm.trans hdigits')
          exact ⟨rfl, hrest⟩

/-- The token behind a value tells whether the side goes on. -/
theorem SideForm.append_inj {form form' : SideForm} (hrest : EndsSide rest) (hother : EndsSide other)
    (h : form.tokens ++ rest = form'.tokens ++ other) : form = form' ∧ rest = other := by
  cases form with
  | bare value =>
      cases form' with
      | bare value' =>
          obtain ⟨rfl, hsame⟩ := ValueForm.append_inj h
          exact ⟨rfl, hsame⟩
      | operation left sign operator hkind htext right =>
          rw [tokens, tokens, List.append_assoc] at h
          exact absurd (ValueForm.append_inj h).2 (hrest.ne_cons hkind)
  | operation left sign operator hkind htext right =>
      cases form' with
      | bare value' =>
          rw [tokens, tokens, List.append_assoc] at h
          exact absurd (ValueForm.append_inj h).2.symm (hother.ne_cons hkind)
      | operation left' sign' operator' hkind' htext' right' =>
          rw [tokens, tokens, List.append_assoc, List.append_assoc] at h
          obtain ⟨rfl, hlater⟩ := ValueForm.append_inj h
          obtain ⟨rfl, hright⟩ := List.cons.inj hlater
          obtain ⟨rfl, hsame⟩ := ValueForm.append_inj hright
          obtain rfl := ArithmeticOperator.symbol_inj (htext.symm.trans htext')
          exact ⟨rfl, hsame⟩

/-- The token behind a side tells whether the expression goes on. -/
theorem ExpressionForm.append_inj {form form' : ExpressionForm} (hrest : EndsExpression rest)
    (hother : EndsExpression other) (h : form.tokens ++ rest = form'.tokens ++ other) :
    form = form' ∧ rest = other := by
  -- a comparison does not go on with a side, so the left side ends in front of it
  have hsign : ∀ {sign : Token} (later : List Token), sign.kind = .comparison → EndsSide (sign :: later) :=
    fun later hkind => endsSide_cons later (by simp [hkind])
  cases form with
  | side side =>
      cases form' with
      | side side' =>
          obtain ⟨rfl, hsame⟩ := SideForm.append_inj hrest.endsSide hother.endsSide h
          exact ⟨rfl, hsame⟩
      | comparison left sign operator hkind htext right =>
          rw [tokens, tokens, List.append_assoc] at h
          have hlater := (SideForm.append_inj hrest.endsSide (hsign _ hkind) h).2
          exact absurd hlater (hrest.ne_cons (by simp [hkind, Kind.isOperator]))
  | comparison left sign operator hkind htext right =>
      cases form' with
      | side side' =>
          rw [tokens, tokens, List.append_assoc] at h
          have hlater := (SideForm.append_inj (hsign _ hkind) hother.endsSide h).2
          exact absurd hlater.symm (hother.ne_cons (by simp [hkind, Kind.isOperator]))
      | comparison left' sign' operator' hkind' htext' right' =>
          rw [tokens, tokens, List.append_assoc, List.append_assoc] at h
          obtain ⟨rfl, hlater⟩ := SideForm.append_inj (hsign _ hkind) (hsign _ hkind') h
          obtain ⟨rfl, hright⟩ := List.cons.inj hlater
          obtain ⟨rfl, hsame⟩ := SideForm.append_inj hrest.endsSide hother.endsSide hright
          obtain rfl := ComparisonOperator.symbol_inj (htext.symm.trans htext')
          exact ⟨rfl, hsame⟩

end Unique

/-! ### Each form is unique, and no body has both -/

/-- Two expressions with the same tokens are the same. -/
theorem ExpressionForm.tokens_inj {form form' : ExpressionForm} (h : form.tokens = form'.tokens) :
    form = form' :=
  (append_inj endsExpression_nil endsExpression_nil (congrArg (· ++ []) h)).1

/-- Two keyword arguments with the same tokens are the same. -/
theorem KeywordForm.tokens_inj {form form' : KeywordForm} (h : form.tokens = form'.tokens) :
    form = form' := by
  rcases form with ⟨left, word, keyword, hkind, right⟩
  rcases form' with ⟨left', word', keyword', hkind', right'⟩
  obtain ⟨rfl, hlater⟩ := ValueForm.append_inj h
  obtain ⟨rfl, hright⟩ := List.cons.inj hlater
  obtain rfl := ExpressionForm.tokens_inj hright
  obtain rfl := Keyword.kind_inj (hkind.symm.trans hkind')
  rfl

theorem endsExpression_comma {comma : Token} (rest : List Token) (h : comma.kind = .comma) :
    EndsExpression (comma :: rest) :=
  endsExpression_cons rest (by simp [h, Kind.isOperator])

theorem ItemsForm.tokens_inj {form form' : ItemsForm} (h : form.tokens = form'.tokens) : form = form' := by
  induction form generalizing form' with
  | one item =>
      cases form' with
      | one item' =>
          obtain rfl := ExpressionForm.tokens_inj h
          rfl
      | more item' comma' hcomma' others' =>
          have happend : item.tokens ++ [] = item'.tokens ++ comma' :: others'.tokens := by
            rw [List.append_nil]
            exact h
          have hends := endsExpression_comma others'.tokens hcomma'
          cases (ExpressionForm.append_inj endsExpression_nil hends happend).2
  | more item comma hcomma others ih =>
      cases form' with
      | one item' =>
          have happend : item.tokens ++ comma :: others.tokens = item'.tokens ++ [] := by
            rw [List.append_nil]
            exact h
          have hends := endsExpression_comma others.tokens hcomma
          cases (ExpressionForm.append_inj hends endsExpression_nil happend).2
      | more item' comma' hcomma' others' =>
          obtain ⟨rfl, hlater⟩ := ExpressionForm.append_inj (endsExpression_comma others.tokens hcomma)
            (endsExpression_comma others'.tokens hcomma') h
          obtain ⟨rfl, hothers⟩ := List.cons.inj hlater
          obtain rfl := ih hothers
          rfl

/-- Behind the first value of a list stands an operator, a comma or nothing. -/
def GoesOn (rest : List Token) : Prop :=
  ∀ token ∈ rest.head?, token.kind.isOperator = true ∨ token.kind = .comma

theorem SideForm.exists_first (form : SideForm) {rest : List Token} (hrest : GoesOn rest) :
    ∃ (value : ValueForm) (more : List Token),
      form.tokens ++ rest = value.tokens ++ more ∧ GoesOn more := by
  cases form with
  | bare value => exact ⟨value, rest, rfl, hrest⟩
  | operation left sign operator hkind htext right =>
      refine ⟨left, sign :: (right.tokens ++ rest), List.append_assoc _ _ _, ?_⟩
      simp [GoesOn, hkind, Kind.isOperator]

theorem ExpressionForm.exists_first (form : ExpressionForm) {rest : List Token} (hrest : GoesOn rest) :
    ∃ (value : ValueForm) (more : List Token),
      form.tokens ++ rest = value.tokens ++ more ∧ GoesOn more := by
  cases form with
  | side form => exact form.exists_first hrest
  | comparison left sign operator hkind htext right =>
      rw [tokens, List.append_assoc]
      apply left.exists_first
      simp [GoesOn, hkind, Kind.isOperator]

theorem ItemsForm.exists_first (form : ItemsForm) :
    ∃ (value : ValueForm) (more : List Token), form.tokens = value.tokens ++ more ∧ GoesOn more := by
  cases form with
  | one item =>
      rw [tokens, ← List.append_nil item.tokens]
      apply item.exists_first
      simp [GoesOn]
  | more item comma hcomma others =>
      apply item.exists_first
      simp [GoesOn, hcomma]

theorem ItemsForm.tokens_ne_nil (form : ItemsForm) : form.tokens ≠ [] := by
  rcases form.exists_first with ⟨value, more, htokens, _⟩
  rw [htokens]
  exact List.append_ne_nil_of_left_ne_nil value.tokens_ne_nil more

/-- Two lists of arguments with the same tokens are the same. -/
theorem ListForm.tokens_inj {form form' : ListForm} (h : form.tokens = form'.tokens) : form = form' := by
  cases form with
  | empty =>
      cases form' with
      | empty => rfl
      | items items' => exact absurd h.symm items'.tokens_ne_nil
  | items items =>
      cases form' with
      | empty => exact absurd h items.tokens_ne_nil
      | items items' =>
          obtain rfl := ItemsForm.tokens_inj h
          rfl

/-- A keyword argument is no list: behind its first value stands a keyword. -/
theorem KeywordForm.tokens_ne (form : KeywordForm) (list : ListForm) : form.tokens ≠ list.tokens := by
  intro h
  cases list with
  | empty => exact form.left.tokens_ne_nil (List.append_eq_nil_iff.1 h).1
  | items items =>
      rcases items.exists_first with ⟨value, more, htokens, hmore⟩
      have happend : form.left.tokens ++ form.word :: form.right.tokens = value.tokens ++ more :=
        h.trans htokens
      have hword := hmore form.word (by rw [← (ValueForm.append_inj happend).2]; rfl)
      rw [form.kind_eq] at hword
      cases hkeyword : form.keyword <;> rw [hkeyword] at hword <;> simp [Keyword.kind, Kind.isOperator] at hword

end PassageMarkup
