/-
Module: PassageMarkup.Proofs.ArgumentReading
Layer: Proofs
Purpose: Reading arguments finds their derivation. A value, a side or an expression in front of other tokens
  is read to its end, if the token behind it does not go on with it, and nothing is read that has no
  derivation; so a body is read as a keyword argument or as a list exactly if it has that form. The keyword
  form is tried first, which decides nothing: no body has both forms.
Imports: Proofs.ArgumentForms
Main exports: readValue?_eq_some_iff, readExpression?_tokens, Expression.ofTokens?_eq_some_iff,
  readArgumentList?_eq_some_iff, readKeywordArgument?_eq_some_iff, Arguments.ofTokens_keyword,
  Arguments.ofTokens_list, Arguments.ofTokens_eq_keyword_iff, Arguments.ofTokens_eq_list_iff,
  Arguments.ofTokens_eq_unparsed_iff
-/
import PassageMarkup.Proofs.ArgumentForms

namespace PassageMarkup

open Text

/-! ### Values, sides and expressions -/

theorem Token.arithmetic?_eq_some_iff {token : Token} {operator : ArithmeticOperator} :
    token.arithmetic? = some operator ↔ token.kind = .arithmetic ∧ token.text = operator.symbol := by
  rw [arithmetic?, ArithmeticOperator.ofSymbol?]
  constructor
  · intro h
    split at h
    · next hkind =>
      have hsymbol := List.find?_some h
      exact ⟨hkind, (eq_of_beq hsymbol).symm⟩
    · cases h
  · rintro ⟨hkind, htext⟩
    rw [if_pos hkind, htext]
    cases operator <;> rfl

theorem Token.comparison?_eq_some_iff {token : Token} {operator : ComparisonOperator} :
    token.comparison? = some operator ↔
      token.kind = .comparison ∧ squeeze token.text = operator.symbol := by
  rw [comparison?, ComparisonOperator.ofSymbol?]
  constructor
  · intro h
    split at h
    · next hkind =>
      have hsymbol := List.find?_some h
      exact ⟨hkind, (eq_of_beq hsymbol).symm⟩
    · cases h
  · rintro ⟨hkind, htext⟩
    rw [if_pos hkind, htext]
    cases operator <;> rfl

theorem Token.keyword?_eq_some_iff {token : Token} {keyword : Keyword} :
    token.keyword? = some keyword ↔ token.kind = keyword.kind := by
  cases keyword <;> cases hkind : token.kind <;> simp [keyword?, hkind, Keyword.kind]

/-- A value is read exactly if one stands in front. -/
theorem readValue?_eq_some_iff {tokens rest : List Token} {literal : Literal} :
    readValue? tokens = some (literal, rest) ↔
      ∃ form : ValueForm, form.tokens ++ rest = tokens ∧ form.value = literal := by
  constructor
  · intro h
    unfold readValue? at h
    split at h
    · cases h
    · next token later =>
      split at h
      · next hminus =>
        split at h
        · cases h
        · next digits later =>
          rcases Option.map_eq_some_iff.1 h with ⟨value, hdigits, hsame⟩
          cases hsame
          exact ⟨.negative token digits value hminus hdigits, rfl, rfl⟩
      · rcases Option.map_eq_some_iff.1 h with ⟨value, hvalue, hsame⟩
        cases hsame
        exact ⟨.single token literal hvalue, rfl, rfl⟩
  · rintro ⟨form, rfl, rfl⟩
    cases form with
    | single token value hvalue =>
        simp [readValue?, ValueForm.tokens, ValueForm.value, Token.isMinus_of_literal? hvalue, hvalue]
    | negative minus digits value hminus hdigits =>
        simp [readValue?, ValueForm.tokens, ValueForm.value, hminus, hdigits]

theorem readValue?_tokens (form : ValueForm) (rest : List Token) :
    readValue? (form.tokens ++ rest) = some (form.value, rest) :=
  readValue?_eq_some_iff.2 ⟨form, rfl, rfl⟩

/-- A side is read to its end. -/
theorem readArithmetic?_tokens (form : SideForm) {rest : List Token} (hrest : EndsSide rest) :
    readArithmetic? (form.tokens ++ rest) = some (form.expression, rest) := by
  cases form with
  | bare value =>
      rw [SideForm.tokens, readArithmetic?, readValue?_tokens]
      cases rest with
      | nil => rfl
      | cons token later => simp [Token.arithmetic?, hrest token rfl, SideForm.expression]
  | operation left sign operator hkind htext right =>
      have hsign := Token.arithmetic?_eq_some_iff.2 ⟨hkind, htext⟩
      rw [SideForm.tokens, List.append_assoc, readArithmetic?, readValue?_tokens]
      simp [hsign, readValue?_tokens, SideForm.expression]

theorem exists_of_readArithmetic? {tokens rest : List Token} {expression : Expression}
    (h : readArithmetic? tokens = some (expression, rest)) :
    ∃ form : SideForm, form.tokens ++ rest = tokens ∧ form.expression = expression := by
  rcases Option.bind_eq_some_iff.1 h with ⟨⟨literal, later⟩, hleft, hafter⟩
  rcases readValue?_eq_some_iff.1 hleft with ⟨left, rfl, rfl⟩
  cases later with
  | nil =>
      cases hafter
      exact ⟨.bare left, rfl, rfl⟩
  | cons sign later =>
      dsimp only at hafter
      split at hafter
      · -- whatever stands behind the value is left for others
        cases hafter
        exact ⟨.bare left, rfl, rfl⟩
      · next operator hsign =>
        rcases Token.arithmetic?_eq_some_iff.1 hsign with ⟨hkind, htext⟩
        rcases Option.bind_eq_some_iff.1 hafter with ⟨⟨other, behind⟩, hright, hsame⟩
        rcases readValue?_eq_some_iff.1 hright with ⟨right, rfl, rfl⟩
        cases hsame
        exact ⟨.operation left sign operator hkind htext right, List.append_assoc _ _ _, rfl⟩

/-- An expression is read to its end. -/
theorem readExpression?_tokens (form : ExpressionForm) {rest : List Token} (hrest : EndsExpression rest) :
    readExpression? (form.tokens ++ rest) = some (form.expression, rest) := by
  cases form with
  | side form =>
      rw [ExpressionForm.tokens, readExpression?, readArithmetic?_tokens form hrest.endsSide]
      cases rest with
      | nil => rfl
      | cons token later =>
          have hkind : token.kind ≠ .comparison := by
            intro hkind
            exact hrest.ne_cons (by simp [hkind, Kind.isOperator]) rfl
          simp [Token.comparison?, hkind, ExpressionForm.expression]
  | comparison left sign operator hkind htext right =>
      have hsign := Token.comparison?_eq_some_iff.2 ⟨hkind, htext⟩
      have hends : EndsSide (sign :: (right.tokens ++ rest)) := endsSide_cons _ (by simp [hkind])
      rw [ExpressionForm.tokens, List.append_assoc, List.cons_append, readExpression?,
        readArithmetic?_tokens left hends]
      simp [hsign, readArithmetic?_tokens right hrest.endsSide, ExpressionForm.expression]

theorem exists_of_readExpression? {tokens rest : List Token} {expression : Expression}
    (h : readExpression? tokens = some (expression, rest)) :
    ∃ form : ExpressionForm, form.tokens ++ rest = tokens ∧ form.expression = expression := by
  rcases Option.bind_eq_some_iff.1 h with ⟨⟨first, later⟩, hleft, hafter⟩
  rcases exists_of_readArithmetic? hleft with ⟨left, rfl, rfl⟩
  cases later with
  | nil =>
      cases hafter
      exact ⟨.side left, rfl, rfl⟩
  | cons sign later =>
      dsimp only at hafter
      split at hafter
      · cases hafter
        exact ⟨.side left, rfl, rfl⟩
      · next operator hsign =>
        rcases Token.comparison?_eq_some_iff.1 hsign with ⟨hkind, htext⟩
        rcases Option.bind_eq_some_iff.1 hafter with ⟨⟨second, behind⟩, hright, hsame⟩
        rcases exists_of_readArithmetic? hright with ⟨right, rfl, rfl⟩
        cases hsame
        exact ⟨.comparison left sign operator hkind htext right, List.append_assoc _ _ _, rfl⟩

/-- Tokens are an expression exactly if they have the form of one. -/
theorem Expression.ofTokens?_eq_some_iff {tokens : List Token} {expression : Expression} :
    Expression.ofTokens? tokens = some expression ↔
      ∃ form : ExpressionForm, form.tokens = tokens ∧ form.expression = expression := by
  constructor
  · intro h
    unfold ofTokens? at h
    split at h
    · next hread =>
      cases h
      rcases exists_of_readExpression? hread with ⟨form, htokens, hsame⟩
      rw [List.append_nil] at htokens
      exact ⟨form, htokens, hsame⟩
    · cases h
  · rintro ⟨form, rfl, rfl⟩
    have hread := readExpression?_tokens form endsExpression_nil
    rw [List.append_nil] at hread
    rw [ofTokens?, hread]

/-! ### Lists of arguments -/

/-- Tokens without a comma are one part, and a comma ends it. -/
theorem splitAtCommas_append {part : List Token} (h : ∀ token ∈ part, token.kind ≠ .comma) :
    splitAtCommas part = [part] ∧ ∀ {comma : Token} (rest : List Token), comma.kind = .comma →
      splitAtCommas (part ++ comma :: rest) = part :: splitAtCommas rest := by
  induction part with
  | nil =>
      refine ⟨rfl, ?_⟩
      intro comma rest hcomma
      simp [splitAtCommas, hcomma]
  | cons token part ih =>
      rcases List.forall_mem_cons.1 h with ⟨hfirst, hothers⟩
      rcases ih hothers with ⟨hone, hmore⟩
      refine ⟨by simp [splitAtCommas, hfirst, hone], ?_⟩
      intro comma rest hcomma
      simp [splitAtCommas, hfirst, hmore rest hcomma]

/-- Either there is no comma, or there is a first one. -/
theorem exists_first_comma (body : List Token) : (∀ token ∈ body, token.kind ≠ .comma) ∨
    ∃ part comma rest, body = part ++ comma :: rest ∧ comma.kind = .comma ∧
      ∀ token ∈ part, token.kind ≠ .comma := by
  cases hfind : body.find? (·.kind == .comma) with
  | none => exact .inl (by simpa using hfind)
  | some comma =>
      rcases List.find?_eq_some_iff_append.1 hfind with ⟨hcomma, part, rest, hbody, hpart⟩
      exact .inr ⟨part, comma, rest, hbody, by simpa using hcomma, by simpa using hpart⟩

theorem mapM_ofTokens?_cons {part : List Token} {parts : List (List Token)} {items : List Expression} :
    (part :: parts).mapM Expression.ofTokens? = some items ↔
      ∃ item others, Expression.ofTokens? part = some item ∧
        parts.mapM Expression.ofTokens? = some others ∧ item :: others = items := by
  simp [List.mapM_cons, Option.bind_eq_some_iff]

/-- Where the parts between commas are all expressions, they have the form of a list together. -/
theorem exists_of_mapM_splitAtCommas {body : List Token} {items : List Expression}
    (h : (splitAtCommas body).mapM Expression.ofTokens? = some items) :
    ∃ form : ItemsForm, form.tokens = body ∧ form.expressions = items := by
  rcases exists_first_comma body with hnone | ⟨part, comma, rest, hbody, hcomma, hpart⟩
  · rw [(splitAtCommas_append hnone).1, mapM_ofTokens?_cons] at h
    rcases h with ⟨item, others, hitem, hothers, rfl⟩
    cases hothers
    rcases Expression.ofTokens?_eq_some_iff.1 hitem with ⟨form, rfl, rfl⟩
    exact ⟨.one form, rfl, rfl⟩
  · have hlength : rest.length < body.length := by
      rw [hbody, List.length_append, List.length_cons]
      omega
    rw [hbody, (splitAtCommas_append hpart).2 rest hcomma, mapM_ofTokens?_cons] at h
    rcases h with ⟨item, others, hitem, hothers, rfl⟩
    rcases Expression.ofTokens?_eq_some_iff.1 hitem with ⟨form, rfl, rfl⟩
    rcases exists_of_mapM_splitAtCommas hothers with ⟨more, rfl, rfl⟩
    exact ⟨.more form comma hcomma more, hbody.symm, rfl⟩
termination_by body.length

theorem mapM_splitAtCommas_tokens (form : ItemsForm) :
    (splitAtCommas form.tokens).mapM Expression.ofTokens? = some form.expressions := by
  induction form with
  | one item =>
      have hitem := Expression.ofTokens?_eq_some_iff.2 ⟨item, rfl, rfl⟩
      rw [ItemsForm.tokens, (splitAtCommas_append item.not_comma).1, mapM_ofTokens?_cons]
      exact ⟨item.expression, [], hitem, rfl, rfl⟩
  | more item comma hcomma others ih =>
      have hitem := Expression.ofTokens?_eq_some_iff.2 ⟨item, rfl, rfl⟩
      rw [ItemsForm.tokens, (splitAtCommas_append item.not_comma).2 _ hcomma, mapM_ofTokens?_cons]
      exact ⟨item.expression, others.expressions, hitem, ih, rfl⟩

/-! ### Arguments -/

/-- A body is read as a list exactly if it has the form of one. -/
theorem readArgumentList?_eq_some_iff {body : List Token} {arguments : Arguments} :
    readArgumentList? body = some arguments ↔
      ∃ form : ListForm, form.tokens = body ∧ .list form.expressions = arguments := by
  constructor
  · intro h
    unfold readArgumentList? at h
    split at h
    · cases h
      exact ⟨.empty, rfl, rfl⟩
    · rcases Option.map_eq_some_iff.1 h with ⟨items, hitems, rfl⟩
      rcases exists_of_mapM_splitAtCommas hitems with ⟨form, rfl, rfl⟩
      exact ⟨.items form, rfl, rfl⟩
  · rintro ⟨form, rfl, rfl⟩
    cases form with
    | empty => rfl
    | items form =>
        rw [ListForm.tokens, ListForm.expressions]
        unfold readArgumentList?
        split
        · next hnil => exact absurd hnil form.tokens_ne_nil
        · rw [mapM_splitAtCommas_tokens, Option.map_some]

/-- A body is read as a keyword argument exactly if it has the form of one. -/
theorem readKeywordArgument?_eq_some_iff {body : List Token} {arguments : Arguments} :
    readKeywordArgument? body = some arguments ↔
      ∃ form : KeywordForm, form.tokens = body ∧ form.arguments = arguments := by
  constructor
  · intro h
    rcases Option.bind_eq_some_iff.1 h with ⟨⟨literal, later⟩, hleft, hafter⟩
    rcases readValue?_eq_some_iff.1 hleft with ⟨left, rfl, rfl⟩
    cases later with
    | nil => cases hafter
    | cons word later =>
        rcases Option.bind_eq_some_iff.1 hafter with ⟨keyword, hkeyword, hafter⟩
        rcases Option.bind_eq_some_iff.1 hafter with ⟨expression, hright, hsame⟩
        rcases Expression.ofTokens?_eq_some_iff.1 hright with ⟨right, rfl, rfl⟩
        cases hsame
        exact ⟨⟨left, word, keyword, Token.keyword?_eq_some_iff.1 hkeyword, right⟩, rfl, rfl⟩
  · rintro ⟨⟨left, word, keyword, hkind, right⟩, rfl, rfl⟩
    have hkeyword := Token.keyword?_eq_some_iff.2 hkind
    have hright := Expression.ofTokens?_eq_some_iff.2 ⟨right, rfl, rfl⟩
    simp [readKeywordArgument?, KeywordForm.tokens, readValue?_tokens, hkeyword, hright,
      KeywordForm.arguments]

/-- A keyword argument is read as what it stands for. -/
theorem Arguments.ofTokens_keyword (form : KeywordForm) : ofTokens form.tokens = form.arguments := by
  rw [ofTokens, readKeywordArgument?_eq_some_iff.2 ⟨form, rfl, rfl⟩]

/-- A list of arguments is read as what it stands for: it is tried second, and no keyword argument has
its tokens. -/
theorem Arguments.ofTokens_list (form : ListForm) : ofTokens form.tokens = .list form.expressions := by
  have hlist := readArgumentList?_eq_some_iff.2 ⟨form, rfl, rfl⟩
  unfold ofTokens
  split
  · next arguments hread =>
    rcases readKeywordArgument?_eq_some_iff.1 hread with ⟨keyword, htokens, _⟩
    exact absurd htokens (keyword.tokens_ne form)
  · rw [hlist, Option.getD_some]

/-- Every body has one of the two forms or is left unparsed. -/
theorem Arguments.ofTokens_cases (body : List Token) :
    (∃ form : KeywordForm, form.tokens = body) ∨ (∃ form : ListForm, form.tokens = body) ∨
      ofTokens body = .unparsed := by
  cases hkeyword : readKeywordArgument? body with
  | some arguments =>
      rcases readKeywordArgument?_eq_some_iff.1 hkeyword with ⟨form, htokens, _⟩
      exact .inl ⟨form, htokens⟩
  | none =>
      cases hlist : readArgumentList? body with
      | some arguments =>
          rcases readArgumentList?_eq_some_iff.1 hlist with ⟨form, htokens, _⟩
          exact .inr (.inl ⟨form, htokens⟩)
      | none =>
          rw [ofTokens, hkeyword, hlist]
          exact .inr (.inr rfl)

/-- Arguments have a keyword exactly if the body has the form of a keyword argument. -/
theorem Arguments.ofTokens_eq_keyword_iff {body : List Token} {word : Keyword} {left right : Expression} :
    ofTokens body = .keyword word left right ↔
      ∃ form : KeywordForm, form.tokens = body ∧ form.arguments = .keyword word left right := by
  constructor
  · intro h
    rcases ofTokens_cases body with ⟨form, rfl⟩ | ⟨form, rfl⟩ | hunparsed
    · rw [ofTokens_keyword] at h
      exact ⟨form, rfl, h⟩
    · rw [ofTokens_list] at h
      cases h
    · rw [hunparsed] at h
      cases h
  · rintro ⟨form, rfl, harguments⟩
    rw [ofTokens_keyword, harguments]

/-- Arguments are a list exactly if the body has the form of one. -/
theorem Arguments.ofTokens_eq_list_iff {body : List Token} {items : List Expression} :
    ofTokens body = .list items ↔ ∃ form : ListForm, form.tokens = body ∧ form.expressions = items := by
  constructor
  · intro h
    rcases ofTokens_cases body with ⟨form, rfl⟩ | ⟨form, rfl⟩ | hunparsed
    · rw [ofTokens_keyword] at h
      cases h
    · rw [ofTokens_list] at h
      cases h
      exact ⟨form, rfl, rfl⟩
    · rw [hunparsed] at h
      cases h
  · rintro ⟨form, rfl, rfl⟩
    exact ofTokens_list form

/-- Arguments are left unparsed exactly if the body has neither form. -/
theorem Arguments.ofTokens_eq_unparsed_iff {body : List Token} : ofTokens body = .unparsed ↔
    (∀ form : KeywordForm, form.tokens ≠ body) ∧ ∀ form : ListForm, form.tokens ≠ body := by
  constructor
  · intro h
    constructor
    · rintro form rfl
      rw [ofTokens_keyword] at h
      cases h
    · rintro form rfl
      rw [ofTokens_list] at h
      cases h
  · rintro ⟨hkeyword, hlist⟩
    rcases ofTokens_cases body with ⟨form, htokens⟩ | ⟨form, htokens⟩ | hunparsed
    · exact absurd htokens (hkeyword form)
    · exact absurd htokens (hlist form)
    · exact hunparsed

end PassageMarkup
