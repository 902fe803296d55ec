/-
Module: PassageMarkup.Proofs.Derivation
Layer: Proofs
Purpose: The grammar of passages as a derivation relation over token lists, said without any reading
  machine. Its rules are
    passage   is any number of calls, links, hooks and nonempty runs of tokens that are neither a
              bracket nor the head of a call;
    call      is a head, elements, `)`, and at most one hook;
    element   is a token that is no bracket, head or `)`, or a head, elements and `)`;
    link      is `[[`, segments with arrows between them, `]]`;
    segment   is a nonempty run of tokens that are no bracket and no arrow;
    hook      is `[`, any number of calls, links, hooks, strings, variables and nonempty runs of prose,
              `]`.
  A passage and the inside of a hook differ only in what counts as running text, so both are items of a
  level.
Imports: Grammar.Phrase
Main exports: Level, Symbol, Derives, IsPassage, Derives.elements_append,
  Derives.segments_ends, Derives.segments_split, Derives.not_isBracket
-/
import PassageMarkup.Grammar.Phrase

namespace PassageMarkup

/-- Where an item stands: between the items of the whole passage, or inside a hook. -/
inductive Level where
  | passage
  | hook
deriving DecidableEq, Repr

/-- Whether tokens of a kind are running text on a level. A hook keeps strings and variables apart. -/
def Level.isRun : Level → Kind → Bool
  | .passage, kind => !kind.isBracket && kind != .callHead
  | .hook, kind => kind.isProse

/-- The symbols of the grammar. -/
inductive Symbol where
  | items (level : Level)
  | item (level : Level)
  | call
  | elements
  | element
  | link
  | segments
  | segment
  | hook
deriving DecidableEq, Repr

/-- The token lists that a symbol of the grammar generates. -/
inductive Derives : Symbol → List Token → Prop where
  | itemsNil {level : Level} : Derives (.items level) []
  | itemsCons {level : Level} {item rest : List Token} (hitem : Derives (.item level) item)
      (hrest : Derives (.items level) rest) : Derives (.items level) (item ++ rest)
  | itemCall {level : Level} {tokens : List Token} (hcall : Derives .call tokens) :
      Derives (.item level) tokens
  | itemLink {level : Level} {tokens : List Token} (hlink : Derives .link tokens) :
      Derives (.item level) tokens
  | itemHook {level : Level} {tokens : List Token} (hhook : Derives .hook tokens) :
      Derives (.item level) tokens
  | itemRun {level : Level} {run : List Token} (hne : run ≠ [])
      (hrun : ∀ token ∈ run, level.isRun token.kind = true) : Derives (.item level) run
  | itemString {token : Token} (hkind : token.kind = .string) : Derives (.item .hook) [token]
  | itemVariable {token : Token} (hkind : token.kind = .variable) : Derives (.item .hook) [token]
  | call {head closing : Token} {body : List Token} (hhead : head.kind = .callHead)
      (hbody : Derives .elements body) (hclosing : closing.kind = .closeParen) :
      Derives .call (head :: (body ++ [closing]))
  | callHooked {head closing : Token} {body hook : List Token} (hhead : head.kind = .callHead)
      (hbody : Derives .elements body) (hclosing : closing.kind = .closeParen)
      (hhook : Derives .hook hook) : Derives .call (head :: (body ++ closing :: hook))
  | elementsNil : Derives .elements []
  | elementsCons {element rest : List Token} (helement : Derives .element element)
      (hrest : Derives .elements rest) : Derives .elements (element ++ rest)
  | elementPlain {token : Token} (hbracket : token.kind.isBracket = false)
      (hhead : token.kind ≠ .callHead) (hclosing : token.kind ≠ .closeParen) :
      Derives .element [token]
  | elementNested {head closing : Token} {body : List Token} (hhead : head.kind = .callHead)
      (hbody : Derives .elements body) (hclosing : closing.kind = .closeParen) :
      Derives .element (head :: (body ++ [closing]))
  | link {opening closing : Token} {inside : List Token} (hopening : opening.kind = .linkOpen)
      (hinside : Derives .segments inside) (hclosing : closing.kind = .linkClose) :
      Derives .link (opening :: (inside ++ [closing]))
  | segmentsOne {segment : List Token} (hsegment : Derives .segment segment) :
      Derives .segments segment
  | segmentsCons {segment rest : List Token} {arrow : Token} (hsegment : Derives .segment segment)
      (harrow : arrow.kind = .linkArrow) (hrest : Derives .segments rest) :
      Derives .segments (segment ++ arrow :: rest)
  | segment {run : List Token} (hne : run ≠ [])
      (hrun : ∀ token ∈ run, token.kind.isLinkText = true) : Derives .segment run
  | hook {opening closing : Token} {inside : List Token} (hopening : opening.kind = .hookOpen)
      (hinside : Derives (.items .hook) inside) (hclosing : closing.kind = .hookClose) :
      Derives .hook (opening :: (inside ++ [closing]))

/-- Whether the grammar generates a token list as a whole passage. -/
def IsPassage (tokens : List Token) : Prop :=
  Derives (.items .passage) tokens

/-! ### Putting derivations together -/

theorem Derives.elements_one {element : List Token} (h : Derives .element element) :
    Derives .elements element := by
  rw [← List.append_nil element]
  exact .elementsCons h .elementsNil

/-- Elements behind elements are elements. -/
theorem Derives.elements_append {first second : List Token} (hfirst : Derives .elements first)
    (hsecond : Derives .elements second) : Derives .elements (first ++ second) := by
  generalize hsymbol : Symbol.elements = symbol at hfirst
  induction hfirst with
  | elementsNil => exact hsecond
  | elementsCons helement _ _ ih =>
      rw [List.append_assoc]
      exact .elementsCons helement (ih hsymbol)
  | _ => cases hsymbol

/-- Segments go on behind an arrow. -/
theorem Derives.segments_append {first second : List Token} {arrow : Token}
    (hfirst : Derives .segments first) (harrow : arrow.kind = .linkArrow)
    (hsecond : Derives .segments second) : Derives .segments (first ++ arrow :: second) := by
  generalize hsymbol : Symbol.segments = symbol at hfirst
  induction hfirst with
  | segmentsOne hsegment => exact .segmentsCons hsegment harrow hsecond
  | segmentsCons hsegment hother _ _ ih =>
      rw [List.append_assoc, List.cons_append]
      exact .segmentsCons hsegment hother (ih hsymbol)
  | _ => cases hsymbol

theorem Derives.segment_one {token : Token} (h : token.kind.isLinkText = true) :
    Derives .segment [token] :=
  .segment (by simp) (by simpa using h)

/-- The last segment grows with every further token of link text. -/
theorem Derives.segments_concat {tokens : List Token} {token : Token}
    (h : Derives .segments tokens) (htoken : token.kind.isLinkText = true) :
    Derives .segments (tokens ++ [token]) := by
  generalize hsymbol : Symbol.segments = symbol at h
  induction h with
  | segmentsOne hsegment =>
      cases hsegment with
      | segment hne hrun =>
          refine .segmentsOne (.segment (by simp) ?_)
          intro other hmem
          rcases List.mem_append.1 hmem with hmem | hmem
          · exact hrun other hmem
          · rw [List.mem_singleton.1 hmem]
            exact htoken
  | segmentsCons hsegment harrow _ _ ih =>
      rw [List.append_assoc, List.cons_append]
      exact .segmentsCons hsegment harrow (ih hsymbol)
  | _ => cases hsymbol

/-! ### Taking segments apart -/

/-- Segments begin and end with link text. -/
theorem Derives.segments_ends {tokens : List Token} (h : Derives .segments tokens) :
    (∃ first, tokens.head? = some first ∧ first.kind.isLinkText = true) ∧
      ∃ last, tokens.getLast? = some last ∧ last.kind.isLinkText = true := by
  have hone : ∀ {segment : List Token}, Derives .segment segment →
      segment ≠ [] ∧ ∀ token ∈ segment, token.kind.isLinkText = true := by
    intro segment hsegment
    cases hsegment with
    | segment hne hrun => exact ⟨hne, hrun⟩
  generalize hsymbol : Symbol.segments = symbol at h
  induction h with
  | segmentsOne hsegment =>
      rcases hone hsegment with ⟨hne, hrun⟩
      constructor
      · exact ⟨_, List.head?_eq_some_head hne, hrun _ (List.head_mem hne)⟩
      · exact ⟨_, List.getLast?_eq_some_getLast hne, hrun _ (List.getLast_mem hne)⟩
  | @segmentsCons segment rest arrow hsegment harrow _ _ ih =>
      rcases hone hsegment with ⟨hne, hrun⟩
      rcases ih hsymbol with ⟨_, last, hlast, htext⟩
      constructor
      · refine ⟨_, ?_, hrun _ (List.head_mem hne)⟩
        rw [List.head?_append, List.head?_eq_some_head hne, Option.some_or]
      · refine ⟨last, ?_, htext⟩
        rw [List.getLast?_append, List.getLast?_cons, hlast]
        rfl
  | _ => cases hsymbol

theorem Derives.segments_ne_nil {tokens : List Token} (h : Derives .segments tokens) : tokens ≠ [] := by
  rcases h.segments_ends with ⟨⟨first, hfirst, _⟩, _⟩
  rintro rfl
  cases hfirst

/-- An arrow within segments parts them into segments. -/
theorem Derives.segments_split {text target : List Token} {arrow : Token}
    (h : Derives .segments (text ++ arrow :: target)) (harrow : arrow.kind = .linkArrow) :
    Derives .segments text ∧ Derives .segments target := by
  have hoff : ∀ {run rest : List Token}, Derives .segment (run ++ arrow :: rest) → False := by
    intro run rest hsegment
    cases hsegment with
    | segment _ hrun =>
        have htext := hrun arrow (by simp)
        rw [harrow] at htext
        cases htext
  generalize hsymbol : Symbol.segments = symbol at h
  generalize htokens : text ++ arrow :: target = tokens at h
  induction h generalizing text with
  | segmentsOne hsegment =>
      subst htokens
      exact absurd hsegment hoff
  | @segmentsCons run rest next hsegment hnext hrest _ ih =>
      rcases List.append_eq_append_iff.1 htokens with ⟨others, rfl, harrowRest⟩ | ⟨others, rfl, hnextRest⟩
      · -- the arrow is in front of the segments that follow, or in the first one
        rcases List.cons_eq_append_iff.1 harrowRest with ⟨rfl, hsame⟩ | ⟨others, rfl, _⟩
        · cases hsame
          rw [List.append_nil] at hsegment
          exact ⟨.segmentsOne hsegment, hrest⟩
        · exact absurd hsegment hoff
      · rcases List.cons_eq_append_iff.1 hnextRest with ⟨rfl, hsame⟩ | ⟨others, rfl, hothers⟩
        · cases hsame
          rw [List.append_nil]
          exact ⟨.segmentsOne hsegment, hrest⟩
        · rcases ih hsymbol hothers.symm with ⟨htext, htarget⟩
          exact ⟨.segmentsCons hsegment hnext htext, htarget⟩
  | _ => cases hsymbol

/-- An arrow within segments has link text on both sides. -/
theorem Derives.segments_arrow {text target : List Token} {arrow : Token}
    (h : Derives .segments (text ++ arrow :: target)) (harrow : arrow.kind = .linkArrow) :
    text ≠ [] ∧ target ≠ [] := by
  rcases h.segments_split harrow with ⟨htext, htarget⟩
  exact ⟨htext.segments_ne_nil, htarget.segments_ne_nil⟩

/-! ### Where no bracket can be -/

theorem not_isBracket_of_isRun {level : Level} {kind : Kind} (h : level.isRun kind = true) :
    kind.isBracket = false := by
  cases level <;> cases kind <;> first | rfl | cases h

theorem not_isBracket_of_isLinkText {kind : Kind} (h : kind.isLinkText = true) :
    kind.isBracket = false := by
  cases kind <;> first | rfl | cases h

/-- Whether what a symbol generates lies within a call or a link. -/
def Symbol.isInner : Symbol → Bool
  | .elements | .element | .segments | .segment => true
  | _ => false

/-- Neither the body of a call nor the inside of a link holds a bracket. -/
theorem Derives.not_isBracket {symbol : Symbol} {tokens : List Token} (h : Derives symbol tokens)
    (hinner : symbol.isInner = true) : ∀ token ∈ tokens, token.kind.isBracket = false := by
  induction h with
  | elementsNil => simp
  | elementsCons _ _ ih ihRest =>
      intro token hmem
      rcases List.mem_append.1 hmem with hmem | hmem
      · exact ih rfl token hmem
      · exact ihRest rfl token hmem
  | elementPlain hbracket =>
      intro token hmem
      rw [List.mem_singleton.1 hmem]
      exact hbracket
  | elementNested hhead _ hclosing ih =>
      intro token hmem
      rcases List.mem_cons.1 hmem with rfl | hmem
      · rw [hhead]
        rfl
      rcases List.mem_append.1 hmem with hmem | hmem
      · exact ih rfl token hmem
      · rw [List.mem_singleton.1 hmem, hclosing]
        rfl
  | segmentsOne _ ih => exact ih rfl
  | segmentsCons _ harrow _ ih ihRest =>
      intro token hmem
      rcases List.mem_append.1 hmem with hmem | hmem
      · exact ih rfl token hmem
      rcases List.mem_cons.1 hmem with rfl | hmem
      · rw [harrow]
        rfl
      · exact ihRest rfl token hmem
  | segment _ hrun =>
      intro token hmem
      exact not_isBracket_of_isLinkText (hrun token hmem)
  | _ => cases hinner

end PassageMarkup
