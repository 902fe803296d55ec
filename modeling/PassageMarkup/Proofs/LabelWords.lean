/-
Module: PassageMarkup.Proofs.LabelWords
Layer: Proofs
Purpose: The words of a label and how they are read. A label spells a literal as one word, a negative number
  as a sign and a word, and an operation as the words of its sides around the operator; so the arguments
  of a call have their words, as tokens without a place. Reading these words gives the arguments
  back, whenever strings need no escapes and numbers are finite.
Imports: Proofs.ArgumentReading, Proofs.NormalForm, Proofs.Numerals, Proofs.Relocation, Proofs.StringSpelling
Main exports: Token.word, Literal.words, Expression.words, Arguments.words, Literal.IsPlain, Expression.literals,
  Literal.exists_form, Expression.exists_form, Arguments.ofTokens_words
-/
import PassageMarkup.Proofs.ArgumentReading
import PassageMarkup.Proofs.NormalForm
import PassageMarkup.Proofs.Numerals
import PassageMarkup.Proofs.Relocation
import PassageMarkup.Proofs.StringSpelling

namespace PassageMarkup

open Text Number

/-! ### Words -/

/-- A token without a place. -/
def Token.word (kind : Kind) (text : String) : Token :=
  ⟨kind, text, 0, 0⟩

/-- A token taken from its place. -/
def Token.bare (token : Token) : Token :=
  .word token.kind token.text

theorem moves_bare : Moves Token.bare :=
  ⟨fun _ => rfl, fun _ => rfl⟩

/-- The words that a literal is spelled with in a label. -/
def Literal.words : Literal → List Token
  | .number (.finite true magnitude) =>
      [.word .arithmetic "-", .word .number ((Literal.number (.finite false magnitude)).label)]
  | literal => [.word literal.kind literal.label]

/-- The words that an expression is spelled with in a label. -/
def Expression.words : Expression → List Token
  | .value literal => literal.words
  | .arithmetic operator left right => left.words ++ .word .arithmetic operator.symbol :: right.words
  | .comparison operator left right => left.words ++ .word .comparison operator.symbol :: right.words

/-- The words of expressions with commas between them. -/
def listWords : List Expression → List Token
  | [] => []
  | [expression] => expression.words
  | expression :: others => expression.words ++ .word .comma "," :: listWords others

/-- The words of the arguments of a call. -/
def Arguments.words : Arguments → List Token
  | .keyword word left right => left.words ++ .word word.kind word.symbol :: right.words
  | .list items => listWords items
  | .unparsed => []

/-- The kinds of the words in an expression. -/
def Kind.inExpression : Kind → Bool
  | .string | .number | .boolean | .time | .variable | .arithmetic | .comparison => true
  | _ => false

theorem Literal.inExpression_words {literal : Literal} {token : Token} (h : token ∈ literal.words) :
    token.kind.inExpression = true := by
  unfold words at h
  split at h
  · rcases List.mem_cons.1 h with rfl | h
    · rfl
    · rw [List.mem_singleton.1 h]
      rfl
  · rw [List.mem_singleton.1 h]
    cases literal <;> rfl

theorem Expression.inExpression_words {expression : Expression} {token : Token}
    (h : token ∈ expression.words) : token.kind.inExpression = true := by
  induction expression with
  | value literal => exact literal.inExpression_words h
  | arithmetic operator left right ihLeft ihRight | comparison operator left right ihLeft ihRight =>
      rcases List.mem_append.1 h with h | h
      · exact ihLeft h
      · rcases List.mem_cons.1 h with rfl | h
        · rfl
        · exact ihRight h

/-! ### Literals that are spelled as they are -/

/-- A literal that its label spells in full: strings are not escaped in labels, and what is not finite has
no digits. -/
def Literal.IsPlain : Literal → Prop
  | .string value => '"' ∉ value.toList ∧ '\\' ∉ value.toList
  | .number value => value.isFinite = true
  | .boolean _ | .time _ | .variable _ => True

instance (literal : Literal) : Decidable literal.IsPlain :=
  match literal with
  | .string value => inferInstanceAs (Decidable ('"' ∉ value.toList ∧ '\\' ∉ value.toList))
  | .number value => inferInstanceAs (Decidable (value.isFinite = true))
  | .boolean _ | .time _ | .variable _ => inferInstanceAs (Decidable True)

/-- The literals of an expression, from left to right. -/
def Expression.literals : Expression → List Literal
  | .value literal => [literal]
  | .arithmetic _ left right => left.literals ++ right.literals
  | .comparison _ left right => left.literals ++ right.literals

/-! ### Reading words -/

theorem toList_label_string (value : String) :
    (Literal.string value).label.toList = '"' :: (value.toList ++ ['"']) := by
  simp [Literal.label]

theorem toList_label_variable (name : String) :
    (Literal.variable name).label.toList = '$' :: name.toList := by
  simp [Literal.label]

theorem toList_label_negative (magnitude : Magnitude) :
    (Literal.number (.finite true magnitude)).label.toList =
      '-' :: (Literal.number (.finite false magnitude)).label.toList := by
  simp [Literal.label, Binary64.numeral]

/-- The digits of a number are read as its magnitude. -/
theorem read?_label (magnitude : Magnitude) :
    Binary64.read? (Literal.number (.finite false magnitude)).label = some (.finite false magnitude) := by
  obtain ⟨whole, fraction, _, hchars, hread⟩ := magnitude.exists_inFull
  simpa [Literal.label, Binary64.numeral, Binary64.read?, hchars] using hread

/-- A literal of one word is a value if its token is that literal. -/
theorem exists_form_word {literal : Literal} (hwords : literal.words = [.word literal.kind literal.label])
    (h : (Token.word literal.kind literal.label).literal? = some literal) :
    ∃ form : ValueForm, form.tokens = literal.words ∧ form.value = literal :=
  ⟨.single _ literal h, hwords.symm, rfl⟩

/-- The words of a literal are a value. -/
theorem Literal.exists_form {literal : Literal} (h : literal.IsPlain) :
    ∃ form : ValueForm, form.tokens = literal.words ∧ form.value = literal := by
  cases literal with
  | string value =>
      apply exists_form_word rfl
      simp only [Token.literal?, Token.word, kind, toList_label_string,
        (standsFor_of_plain h.1 h.2).unquote, String.ofList_toList]
  | number value =>
      cases value with
      | nan | infinite => cases h
      | finite negative magnitude =>
          have hread := read?_label magnitude
          cases negative with
          | true =>
              have hdigits : (Token.word .number (Literal.number (.finite false magnitude)).label).number? =
                  some (.finite false magnitude) := by
                simp [Token.number?, Token.word, hread]
              exact ⟨.negative (.word .arithmetic "-") _ _ rfl hdigits, rfl, rfl⟩
          | false =>
              apply exists_form_word rfl
              simp [Token.literal?, Token.word, kind, hread]
  | boolean value =>
      apply exists_form_word rfl
      cases value <;> rfl
  | time value => exact exists_form_word rfl rfl
  | «variable» name =>
      apply exists_form_word rfl
      simp [Token.literal?, Token.word, kind, toList_label_variable]

/-- The words of a side are a side. -/
theorem Expression.exists_sideForm {expression : Expression} (hside : expression.isSide = true)
    (h : ∀ literal ∈ expression.literals, literal.IsPlain) :
    ∃ form : SideForm, form.tokens = expression.words ∧ form.expression = expression := by
  cases expression with
  | value literal =>
      rcases Literal.exists_form (h literal (by simp [literals])) with ⟨form, htokens, rfl⟩
      exact ⟨.bare form, htokens, rfl⟩
  | arithmetic operator left right =>
      cases left with
      | arithmetic | comparison => cases hside
      | value first =>
        cases right with
        | arithmetic | comparison => cases hside
        | value second =>
          rcases Literal.exists_form (h first (by simp [literals])) with ⟨left, hleft, rfl⟩
          rcases Literal.exists_form (h second (by simp [literals])) with ⟨right, hright, rfl⟩
          refine ⟨.operation left (.word .arithmetic operator.symbol) operator rfl rfl right, ?_, rfl⟩
          show left.tokens ++ _ :: right.tokens = _
          rw [hleft, hright]
          rfl
  | comparison => cases hside

/-- The words of an expression are an expression. -/
theorem Expression.exists_form {expression : Expression} (hflat : expression.isFlat = true)
    (h : ∀ literal ∈ expression.literals, literal.IsPlain) :
    ∃ form : ExpressionForm, form.tokens = expression.words ∧ form.expression = expression := by
  cases expression with
  | value literal =>
      rcases exists_sideForm rfl h with ⟨form, htokens, hsame⟩
      exact ⟨.side form, htokens, hsame⟩
  | arithmetic operator left right =>
      have hside : (arithmetic operator left right).isSide = true := hflat
      rcases exists_sideForm hside h with ⟨form, htokens, hsame⟩
      exact ⟨.side form, htokens, hsame⟩
  | comparison operator left right =>
      rcases Bool.and_eq_true_iff.1 hflat with ⟨hleft, hright⟩
      rcases exists_sideForm hleft (fun literal hmem => h literal (List.mem_append_left _ hmem))
        with ⟨first, hfirst, rfl⟩
      rcases exists_sideForm hright (fun literal hmem => h literal (List.mem_append_right _ hmem))
        with ⟨second, hsecond, rfl⟩
      have htext : squeeze operator.symbol = operator.symbol := by
        cases operator <;> decide
      refine ⟨.comparison first (.word .comparison operator.symbol) operator rfl htext second, ?_, rfl⟩
      show first.tokens ++ _ :: second.tokens = _
      rw [hfirst, hsecond]
      rfl

/-! ### Arguments -/

/-- The words of a list are a list of arguments. -/
theorem exists_itemsForm {items : List Expression} (hne : items ≠ [])
    (hflat : ∀ item ∈ items, item.isFlat = true)
    (h : ∀ item ∈ items, ∀ literal ∈ item.literals, literal.IsPlain) :
    ∃ form : ItemsForm, form.tokens = listWords items ∧ form.expressions = items := by
  fun_induction listWords items with
  | case1 => exact absurd rfl hne
  | case2 expression =>
      rcases Expression.exists_form (hflat expression (by simp)) (h expression (by simp))
        with ⟨form, htokens, rfl⟩
      exact ⟨.one form, htokens, rfl⟩
  | case3 expression others hothers ih =>
      rcases List.forall_mem_cons.1 hflat with ⟨hfirst, hflats⟩
      rcases List.forall_mem_cons.1 h with ⟨hplain, hplains⟩
      rcases Expression.exists_form hfirst hplain with ⟨form, htokens, rfl⟩
      rcases ih (by simpa using hothers) hflats hplains with ⟨more, hmore, rfl⟩
      refine ⟨.more form (.word .comma ",") rfl more, ?_, rfl⟩
      show form.tokens ++ _ :: more.tokens = _
      rw [htokens, hmore]

/-- The words of arguments are read as the arguments. -/
theorem Arguments.ofTokens_words {arguments : Arguments} (hflat : arguments.IsFlat)
    (hparsed : arguments ≠ .unparsed)
    (h : ∀ item ∈ arguments.expressions, ∀ literal ∈ item.literals, literal.IsPlain) :
    Arguments.ofTokens arguments.words = arguments := by
  cases arguments with
  | unparsed => exact absurd rfl hparsed
  | keyword word left right =>
      cases left with
      | arithmetic | comparison => cases hflat.1
      | value literal =>
          have hplain : literal.IsPlain :=
            h (.value literal) (by simp [expressions]) literal (by simp [Expression.literals])
          rcases Literal.exists_form hplain with ⟨first, hfirst, rfl⟩
          rcases Expression.exists_form hflat.2 (h right (by simp [expressions]))
            with ⟨second, hsecond, rfl⟩
          have hread := ofTokens_keyword ⟨first, .word word.kind word.symbol, word, rfl, second⟩
          rw [KeywordForm.tokens, hfirst, hsecond] at hread
          exact hread
  | list items =>
      by_cases hne : items = []
      · rw [hne]
        exact ofTokens_list .empty
      · rcases exists_itemsForm hne hflat h with ⟨form, htokens, rfl⟩
        rw [words, ← htokens]
        exact ofTokens_list (.items form)

end PassageMarkup
