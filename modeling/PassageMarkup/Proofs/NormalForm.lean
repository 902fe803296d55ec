/-
Module: PassageMarkup.Proofs.NormalForm
Layer: Proofs
Purpose: The normal form of trees. On every level of the tree of an accepted passage texts and the sides of
  links are trimmed and not empty, no text follows another one, literals stand inside hooks only and are
  strings or variables, a hook behind a call belongs to the call, and the arguments of a call nest no deeper
  than one operation on each side of one comparison. Texts are trimmed because tokens are; the rest is what
  reading keeps apart, carried over to the nodes.
Imports: Proofs.ArgumentReading, Proofs.Levels
Main exports: Expression.isFlat, Arguments.isFlat_ofTokens, Tight, Node.IsNormal, NormalLevel,
  tight_spanText, tight_ofTokens, Becomes.isNormal, normalLevel_of_parse
-/
import PassageMarkup.Proofs.ArgumentReading
import PassageMarkup.Proofs.Levels

namespace PassageMarkup

open Text

/-! ### Arguments -/

/-- Whether an expression is a literal and nothing more. -/
def Expression.isValue : Expression → Bool
  | .value _ => true
  | _ => false

/-- Whether an expression may be a side of a comparison: a literal, or one operation on two literals. -/
def Expression.isSide : Expression → Bool
  | .value _ => true
  | .arithmetic _ left right => left.isValue && right.isValue
  | .comparison .. => false

/-- Whether an expression is a side, or a comparison of two sides. -/
def Expression.isFlat : Expression → Bool
  | .comparison _ left right => left.isSide && right.isSide
  | expression => expression.isSide

theorem Expression.isFlat_of_isSide {expression : Expression} (h : expression.isSide = true) :
    expression.isFlat = true := by
  cases expression with
  | value | arithmetic => exact h
  | comparison => cases h

/-- Arguments of which each is flat; what stands in front of a keyword is a literal. -/
def Arguments.IsFlat : Arguments → Prop
  | .keyword _ left right => left.isValue = true ∧ right.isFlat = true
  | .list items => ∀ item ∈ items, item.isFlat = true
  | .unparsed => True

theorem SideForm.isSide (form : SideForm) : form.expression.isSide = true := by
  cases form <;> rfl

theorem ExpressionForm.isFlat (form : ExpressionForm) : form.expression.isFlat = true := by
  cases form with
  | side form => exact Expression.isFlat_of_isSide form.isSide
  | comparison left sign operator hkind htext right =>
      simp [expression, Expression.isFlat, left.isSide, right.isSide]

theorem ItemsForm.isFlat (form : ItemsForm) : ∀ item ∈ form.expressions, item.isFlat = true := by
  induction form with
  | one item =>
      intro other hmem
      rw [List.mem_singleton.1 hmem]
      exact item.isFlat
  | more item comma hcomma others ih => exact List.forall_mem_cons.2 ⟨item.isFlat, ih⟩

/-- Arguments are flat, whatever the body of a call is. -/
theorem Arguments.isFlat_ofTokens (body : List Token) : (Arguments.ofTokens body).IsFlat := by
  rcases ofTokens_cases body with ⟨form, rfl⟩ | ⟨form, rfl⟩ | hunparsed
  · rw [ofTokens_keyword]
    exact ⟨rfl, form.right.isFlat⟩
  · rw [ofTokens_list]
    cases form with
    | empty => simp [IsFlat, ListForm.expressions]
    | items form => exact form.isFlat
  · rw [hunparsed]
    trivial

/-! ### Nodes in normal form -/

/-- A text that is not empty and has no blank at either end. -/
def Tight (text : String) : Prop :=
  text ≠ "" ∧ trim text = text

/-- A call whose arguments are flat, with exactly two of them where a keyword joins them, the first a
literal. -/
structure Call.IsNormal (call : Call) : Prop where
  flat : ∀ arg ∈ call.args, arg.isFlat = true
  keyword : call.keyword.isSome = true → ∃ literal right, call.args = [.value literal, right]

/-- What a node by itself must be on a level. -/
def Node.IsNormal (level : Level) : Node → Prop
  | .text content => Tight content
  | .literal value =>
      level = .hook ∧ ((∃ content, value = .string content) ∨ ∃ name, value = .variable name)
  | .link sides => Tight sides.text ∧ Tight sides.target
  | .call known _ => known.IsNormal
  | .hook _ | .unknownCall _ _ _ => True

/-- A list of siblings in normal form: each of them is, no text follows a text, and no hook follows a call
that has none. -/
structure NormalLevel (level : Level) (nodes : List Node) : Prop where
  each : ∀ node ∈ nodes, node.IsNormal level
  texts_apart : ∀ first second, ¬ [.text first, .text second] <:+: nodes
  call_hooked : ∀ call children, ¬ [.call call none, .hook children] <:+: nodes
  unknownCall_hooked : ∀ name raw children, ¬ [.unknownCall name raw none, .hook children] <:+: nodes

/-! ### Texts and links -/

/-- The text that some tokens in a row span is trimmed and not empty. -/
theorem tight_spanText {source : String} {part : List Token} (hpart : part <:+: tokensOf source)
    (hne : part ≠ []) : Tight (spanText source part) := by
  rcases spanText_eq (tiles_tokensOf source) hpart (List.head?_eq_some_head hne)
    (List.getLast?_eq_some_getLast hne) with ⟨middle, hsolid, hspan, _⟩
  rw [hspan]
  constructor
  · intro hempty
    have hmiddle : middle = [] := by simpa using congrArg String.toList hempty
    exact hsolid.ne_nil hmiddle
  · exact trim_of_solidText hsolid

/-- Both sides of a link are trimmed and not empty. -/
theorem tight_ofTokens {source : String} {inside : List Token} (hinside : Derives .segments inside)
    (hpart : inside <:+: tokensOf source) :
    Tight (Link.ofTokens source inside).text ∧ Tight (Link.ofTokens source inside).target := by
  have hsides : ∀ {text target : String}, Tight text → Tight target →
      Tight (Link.ofSides text target).text ∧ Tight (Link.ofSides text target).target := by
    intro text target htext htarget
    rw [Link.ofSides, htext.2, htarget.2]
    exact ⟨htext, htarget⟩
  unfold Link.ofTokens
  split
  · next text target hsplit =>
    rcases parts_of_splitAtLastArrow? hsplit with ⟨hbefore, hbehind⟩
    rcases splitAtLastArrow?_eq_some hsplit with ⟨arrow, harrow, rfl⟩
    rcases hinside.segments_arrow harrow with ⟨htext, htarget⟩
    exact hsides (tight_spanText (hbefore.trans hpart) htext)
      (tight_spanText (hbehind.trans hpart) htarget)
  · have htight := tight_spanText hpart hinside.segments_ne_nil
    exact hsides htight htight

/-! ### Levels in normal form -/

section

variable {source : String} {catalog : Catalog} {level : Level}

theorem isNormal_callNode {text : CallText} {pattern : Option Pattern} {hook : Option (List Node)} :
    (text.node source pattern hook).IsNormal level := by
  cases pattern with
  | none => trivial
  | some pattern =>
      have hflat := Arguments.isFlat_ofTokens text.body
      show Call.IsNormal _
      cases harguments : Arguments.ofTokens text.body with
      | keyword word left right =>
          rw [harguments] at hflat
          cases left with
          | arithmetic | comparison => cases hflat.1
          | value literal =>
              constructor
              · intro arg hmem
                rcases List.mem_cons.1 hmem with rfl | hmem
                · rfl
                · rw [List.mem_singleton.1 hmem]
                  exact hflat.2
              · intro _
                exact ⟨literal, right, rfl⟩
      | list items =>
          rw [harguments] at hflat
          refine ⟨hflat, ?_⟩
          intro hkeyword
          cases hkeyword
      | unparsed =>
          constructor
          · intro arg hmem
            cases hmem
          · intro hkeyword
            cases hkeyword

/-- The node of a phrase is in normal form by itself. -/
theorem Becomes.isNormal {phrase : Phrase} {node : Node} (h : Becomes source catalog phrase node)
    (hfits : phrase.Fits level) (hpart : phrase.yield <:+: tokensOf source) : node.IsNormal level := by
  cases h with
  | prose => exact tight_spanText hpart hfits.1
  | @value token value hvalue =>
      refine ⟨hfits.1, ?_⟩
      rcases hfits.2 with hkind | hkind
      · simp only [Token.literal?, hkind, Option.some.injEq] at hvalue
        exact .inl ⟨_, hvalue.symm⟩
      · simp only [Token.literal?, hkind, Option.some.injEq] at hvalue
        exact .inr ⟨_, hvalue.symm⟩
  | link => exact tight_ofTokens hfits.2.1 (inside_part_link.trans hpart)
  | hook => trivial
  | call | hooked => exact isNormal_callNode

/-- Whether a node is a text. -/
def Node.isText : Node → Bool
  | .text _ => true
  | _ => false

/-- Whether a node is a hook that belongs to no call. -/
def Node.isHook : Node → Bool
  | .hook _ => true
  | _ => false

/-- Whether a node is a call without a hook. -/
def Node.isBareCall : Node → Bool
  | .call _ none | .unknownCall _ _ none => true
  | _ => false

/-- A node is of the sort that its phrase is. -/
theorem Becomes.sorts {phrase : Phrase} {node : Node} (h : Becomes source catalog phrase node) :
    node.isText = phrase.isProse ∧ node.isHook = phrase.isHook ∧
      node.isBareCall = phrase.isBareCall := by
  cases h with
  | prose | value | link | hook => exact ⟨rfl, rfl, rfl⟩
  | @call text pattern | @hooked text pattern => cases pattern <;> exact ⟨rfl, rfl, rfl⟩

/-- Whether two neighbours would have been read as one. -/
def Node.joins (first second : Node) : Bool :=
  first.isText && second.isText || first.isBareCall && second.isHook

/-- Nodes that stand for phrases of a level do not belong together either. -/
theorem isChain_nodes {phrases : List Phrase} {nodes : List Node}
    (hlevel : OnLevel source level phrases)
    (h : List.Forall₂ (Becomes source catalog) phrases nodes) :
    nodes.IsChain fun first second => first.joins second = false := by
  refine isChain_of_becomes ?_ h (apartAll_iff.1 hlevel.apart).1
  intro first second node next hfirst hsecond hjoins
  rcases hfirst.sorts with ⟨htext, _, hbare⟩
  rcases hsecond.sorts with ⟨htext', hhook, _⟩
  rw [Node.joins, htext, htext', hbare, hhook]
  exact hjoins

/-- The tree of an accepted passage is in normal form on every level. -/
theorem normalLevel_of_parse {program : Program} (hparse : parse catalog source = .ok program)
    {nodes : List Node} (h : Siblings program level nodes) : NormalLevel level nodes := by
  rcases h.origin hparse with ⟨phrases, hlevel, hnodes⟩
  have hbecomes := hlevel.becomes hnodes
  have hchain := isChain_nodes hlevel hbecomes
  -- two neighbours are a chain of their own, which their sorts refute
  have hapart : ∀ {first second : Node}, [first, second] <:+: nodes →
      first.joins second = false := by
    intro first second hpart
    have hpair := List.IsChain.infix hchain hpart
    rwa [List.isChain_pair] at hpair
  refine ⟨?_, ?_, ?_, ?_⟩
  · intro node hmem
    rcases exists_becomes_of_mem hbecomes hmem with ⟨phrase, hphrase, hnode⟩
    exact hnode.isNormal (hlevel.fits_of_mem hphrase) (hlevel.part_of_mem hphrase)
  · intro first second hpart
    cases hapart hpart
  · intro call children hpart
    cases hapart hpart
  · intro name raw children hpart
    cases hapart hpart

end

/-- Inside the hook of a condition: text, a variable and a link. -/
theorem normalLevel_of_parse_inside :
    ∃ program children,
      parse .builtin "(if: $n + 1 > 2)[ so  $who  [[ go on -> Hall ]] ]" = .ok program ∧
        Siblings program .hook children ∧ children.length = 3 ∧ NormalLevel .hook children := by
  have hhook : (parse .builtin "(if: $n + 1 > 2)[ so  $who  [[ go on -> Hall ]] ]").toOption.any
      (fun program => program.nodes.any fun node => node.hook?.any fun inner => inner.length == 3) =
        true := by decide +kernel
  cases hparse : parse .builtin "(if: $n + 1 > 2)[ so  $who  [[ go on -> Hall ]] ]" with
  | error e =>
      rw [hparse] at hhook
      cases hhook
  | ok program =>
      rw [hparse] at hhook
      rcases List.any_eq_true.1 hhook with ⟨node, hmem, hnode⟩
      rcases (Option.any_eq_true_iff_get _ _).1 hnode with ⟨hsome, hlength⟩
      have hsiblings : Siblings program .hook (node.hook?.get hsome) :=
        .inside .top hmem (Option.some_get hsome).symm
      exact ⟨program, _, rfl, hsiblings, by simpa using hlength,
        normalLevel_of_parse hparse hsiblings⟩

end PassageMarkup
