/-
Module: PassageMarkup.Proofs.LabelCharacters
Layer: Proofs
Purpose: Where the characters of a label come from. A label is put together from pieces of the passage, which
  are kept as they are or lose their quotes, escapes and blanks, and from the signs and words that labels
  are written with. So every character of a label in the tree of a passage is one of the passage, or a
  printable character of ASCII.
Imports: Proofs.LabelReading
Main exports: isGraphic, MadeFrom, madeFrom_spanText, madeFrom_literal, madeFrom_callNode, Becomes.madeFrom,
  madeFrom_label
-/
import PassageMarkup.Proofs.LabelReading

namespace PassageMarkup

open Text Number

/-- Whether a character is a printable one of ASCII. -/
def isGraphic (c : Char) : Bool :=
  0x20 ≤ c.toNat && c.toNat < 0x7F

/-- A text of characters of a passage and printable characters of ASCII. -/
def MadeFrom (source text : String) : Prop :=
  ∀ c ∈ text.toList, c ∈ source.toList ∨ isGraphic c = true

section

variable {source : String}

/-! ### Putting texts together -/

theorem madeFrom_append {first second : String} :
    MadeFrom source (first ++ second) ↔ MadeFrom source first ∧ MadeFrom source second := by
  rw [MadeFrom, String.toList_append, List.forall_mem_append]
  rfl

/-- A fixed text of printable characters. -/
theorem madeFrom_graphic {text : String} (h : text.toList.all isGraphic = true) : MadeFrom source text :=
  fun c hmem => .inr (List.all_eq_true.1 h c hmem)

/-- Characters that are all in a text made from a passage. -/
theorem MadeFrom.subset {text : String} {cs : List Char} (h : MadeFrom source text)
    (hsubset : cs ⊆ text.toList) : MadeFrom source (String.ofList cs) := by
  intro c hmem
  rw [String.toList_ofList] at hmem
  exact h c (hsubset hmem)

theorem madeFrom_intercalate {separator : String} {texts : List String}
    (hseparator : MadeFrom source separator) (h : ∀ text ∈ texts, MadeFrom source text) :
    MadeFrom source (separator.intercalate texts) := by
  induction texts with
  | nil =>
      have hempty : separator.intercalate [] = "" := rfl
      rw [hempty]
      exact madeFrom_graphic (by decide)
  | cons first others ih =>
      rcases List.forall_mem_cons.1 h with ⟨hfirst, hothers⟩
      by_cases hne : others = []
      · simpa [hne] using hfirst
      · rw [String.intercalate_cons_of_ne_nil hne, madeFrom_append, madeFrom_append]
        exact ⟨⟨hfirst, hseparator⟩, ih hothers⟩

/-! ### Pieces of the passage -/

theorem dropBytes_subset (n : Nat) (cs : List Char) : dropBytes n cs ⊆ cs := by
  fun_induction dropBytes n cs with
  | case1 => exact List.Subset.refl _
  | case2 => exact List.Subset.refl _
  | case3 n c cs ih => exact List.subset_cons_of_subset c ih

theorem takeBytes_subset (n : Nat) (cs : List Char) : takeBytes n cs ⊆ cs := by
  fun_induction takeBytes n cs with
  | case1 => exact List.nil_subset _
  | case2 => exact List.nil_subset _
  | case3 n c cs ih => exact List.cons_subset_cons c ih

theorem madeFrom_slice (source : String) (start stop : Nat) : MadeFrom source (slice source start stop) := by
  have hsource : MadeFrom source source := fun _ hmem => .inl hmem
  exact hsource.subset (List.Subset.trans (takeBytes_subset _ _) (dropBytes_subset _ _))

theorem trimChars_subset (cs : List Char) : trimChars cs ⊆ cs := by
  have hleft : trimLeft cs ⊆ cs := (List.dropWhile_suffix _).subset
  intro c hmem
  rw [trimChars, trimRight, List.mem_reverse] at hmem
  exact hleft (List.mem_reverse.1 ((List.dropWhile_suffix _).subset hmem))

theorem MadeFrom.trim {text : String} (h : MadeFrom source text) : MadeFrom source (trim text) :=
  h.subset (trimChars_subset _)

theorem madeFrom_spanText (source : String) (tokens : List Token) :
    MadeFrom source (spanText source tokens) := by
  unfold spanText
  split
  · exact (madeFrom_slice source _ _).trim
  · exact madeFrom_graphic (by decide)

theorem madeFrom_token {token : Token} (h : token ∈ tokensOf source) : MadeFrom source token.text := by
  rw [((tiles_tokensOf source).mem_slice h).2.2.1]
  exact madeFrom_slice source _ _

/-! ### Literals -/

theorem unescape_subset (cs : List Char) : unescape cs ⊆ cs := by
  fun_induction unescape cs with
  | case1 => exact List.Subset.refl _
  | case2 => exact List.nil_subset _
  | case3 c cs ih => exact List.subset_cons_of_subset _ (List.cons_subset_cons c ih)
  | case4 c cs _ _ ih => exact List.cons_subset_cons c ih

theorem unquote_subset (cs : List Char) : unquote cs ⊆ cs := by
  unfold unquote
  split
  · next rest =>
    split
    · exact List.Subset.trans (unescape_subset _)
        (List.subset_cons_of_subset _ (List.dropLast_subset rest))
    · exact unescape_subset _
  · exact unescape_subset _

theorem isGraphic_of_isAsciiDigit {c : Char} (h : isAsciiDigit c = true) : isGraphic c = true := by
  simp only [isAsciiDigit, Bool.and_eq_true, decide_eq_true_eq] at h
  have hlow : '0'.toNat ≤ c.toNat := h.1
  have hhigh : c.toNat ≤ '9'.toNat := h.2
  have hbounds : '0'.toNat = 48 ∧ '9'.toNat = 57 := by decide
  simp only [isGraphic, Bool.and_eq_true, decide_eq_true_eq]
  omega

/-- The label of a number has digits and signs only. -/
theorem madeFrom_number (value : Binary64) : MadeFrom source (Literal.number value).label := by
  cases value with
  | nan => exact madeFrom_graphic (by decide)
  | infinite negative => cases negative <;> exact madeFrom_graphic (by decide)
  | finite negative magnitude =>
      have hdigits : MadeFrom source (Literal.number (.finite false magnitude)).label := by
        rcases exists_inFull_label magnitude with ⟨whole, fraction, hdigits, hlabel⟩
        intro c hmem
        rw [hlabel] at hmem
        rcases mem_inFull hdigits hmem with hdigit | rfl
        · exact .inr (isGraphic_of_isAsciiDigit hdigit)
        · exact .inr (by decide)
      cases negative with
      | false => exact hdigits
      | true =>
          rw [MadeFrom, toList_label_negative]
          exact List.forall_mem_cons.2 ⟨.inr (by decide), hdigits⟩

theorem madeFrom_boolean (value : Bool) : MadeFrom source (Literal.boolean value).label := by
  cases value <;> exact madeFrom_graphic (by decide)

theorem madeFrom_literal {token : Token} {literal : Literal} (htext : MadeFrom source token.text)
    (h : token.literal? = some literal) : MadeFrom source literal.label := by
  have hquote : MadeFrom source "\"" := madeFrom_graphic (by decide)
  unfold Token.literal? at h
  split at h
  · cases h
    exact madeFrom_append.2 ⟨madeFrom_append.2 ⟨hquote, htext.subset (unquote_subset _)⟩, hquote⟩
  · rcases Option.map_eq_some_iff.1 h with ⟨value, _, rfl⟩
    exact madeFrom_number value
  · cases h
    exact madeFrom_boolean _
  · cases h
    exact htext
  · cases h
    exact madeFrom_append.2 ⟨madeFrom_graphic (by decide), htext.subset (List.drop_subset 1 _)⟩
  · cases h

/-! ### Calls -/

theorem Expression.madeFrom_label {expression : Expression}
    (h : ∀ literal ∈ expression.literals, MadeFrom source literal.label) :
    MadeFrom source expression.label := by
  have hspace : MadeFrom source " " := madeFrom_graphic (by decide)
  induction expression with
  | value literal => exact h literal (by simp [literals])
  | arithmetic operator left right ihLeft ihRight =>
      rcases List.forall_mem_append.1 h with ⟨hleft, hright⟩
      have hsymbol : MadeFrom source operator.symbol := madeFrom_graphic (by cases operator <;> decide)
      simp only [label, madeFrom_append]
      exact ⟨⟨⟨⟨ihLeft hleft, hspace⟩, hsymbol⟩, hspace⟩, ihRight hright⟩
  | comparison operator left right ihLeft ihRight =>
      rcases List.forall_mem_append.1 h with ⟨hleft, hright⟩
      have hsymbol : MadeFrom source operator.symbol := madeFrom_graphic (by cases operator <;> decide)
      simp only [label, madeFrom_append]
      exact ⟨⟨⟨⟨ihLeft hleft, hspace⟩, hsymbol⟩, hspace⟩, ihRight hright⟩

theorem Call.madeFrom_label {call : Call} (hname : MadeFrom source call.name)
    (h : ∀ arg ∈ call.args, MadeFrom source arg.label) : MadeFrom source call.label := by
  have harguments : MadeFrom source call.argumentLabel := by
    unfold argumentLabel
    split
    · next keyword left right _ hargs =>
      have hspace : MadeFrom source " " := madeFrom_graphic (by decide)
      have hsymbol : MadeFrom source keyword.symbol := madeFrom_graphic (by cases keyword <;> decide)
      simp only [madeFrom_append]
      exact ⟨⟨⟨⟨h left (by simp [hargs]), hspace⟩, hsymbol⟩, hspace⟩, h right (by simp [hargs])⟩
    · exact madeFrom_intercalate (madeFrom_graphic (by decide)) (List.forall_mem_map.2 h)
  have hopening : MadeFrom source "(" := madeFrom_graphic (by decide)
  unfold label
  split
  · simp only [madeFrom_append]
    exact ⟨⟨hopening, hname⟩, madeFrom_graphic (by decide)⟩
  · simp only [madeFrom_append]
    exact ⟨⟨⟨⟨hopening, hname⟩, madeFrom_graphic (by decide)⟩, harguments⟩, madeFrom_graphic (by decide)⟩

/-- The label of a call is made from the passage, whether the catalog knows the call or not. -/
theorem madeFrom_callNode {text : CallText} (hpart : text.yield <:+: tokensOf source)
    (pattern : Option Pattern) (hook : Option (List Node)) :
    MadeFrom source (text.node source pattern hook).label := by
  cases pattern with
  | none => exact madeFrom_slice source _ _
  | some pattern =>
      have hhead : MadeFrom source text.head.text :=
        madeFrom_token (hpart.mem (by simp [CallText.yield]))
      have hname : MadeFrom source text.name :=
        hhead.subset (List.Subset.trans (List.dropLast_subset _) (List.drop_subset 1 _))
      refine Call.madeFrom_label hname ?_
      intro arg harg
      apply Expression.madeFrom_label
      refine Supplies.arguments (fun value => madeFrom_number value) ?_ arg harg
      intro token hmem literal hliteral
      exact madeFrom_literal (madeFrom_token (hpart.mem (by simp [CallText.yield, hmem]))) hliteral

/-! ### Nodes -/

theorem Link.madeFrom_label {link : Link} (htext : MadeFrom source link.text)
    (htarget : MadeFrom source link.target) : MadeFrom source link.label := by
  unfold label
  split
  · exact htext
  · simp only [madeFrom_append]
    exact ⟨⟨htext, madeFrom_graphic (by decide)⟩, htarget⟩

theorem madeFrom_link (source : String) (inside : List Token) :
    MadeFrom source (Link.ofTokens source inside).label := by
  have hsides : ∀ text target : List Token,
      MadeFrom source (Link.ofSides (spanText source text) (spanText source target)).label := by
    intro text target
    exact Link.madeFrom_label (madeFrom_spanText source text).trim (madeFrom_spanText source target).trim
  unfold Link.ofTokens
  split
  · exact hsides _ _
  · exact hsides inside inside

theorem madeFrom_hookLabel (source : String) (children : List Node) :
    MadeFrom source (hookLabel children) := by
  have hcount : MadeFrom source (toString children.length) := by
    intro c hmem
    have hdigit : c ∈ Nat.toDigits 10 children.length := by simpa [Nat.repr] using hmem
    exact .inr (isGraphic_of_isAsciiDigit (isAsciiDigit_of_mem_toDigits hdigit))
  have hword : MadeFrom source (pluralWord children.length "item") := by
    unfold pluralWord
    split <;> exact madeFrom_graphic (by decide)
  simp only [hookLabel, plural, madeFrom_append]
  exact ⟨⟨hcount, madeFrom_graphic (by decide)⟩, hword⟩

theorem Becomes.madeFrom {catalog : Catalog} {phrase : Phrase} {node : Node}
    (h : Becomes source catalog phrase node) (hpart : phrase.yield <:+: tokensOf source) :
    MadeFrom source node.label := by
  cases h with
  | prose => exact madeFrom_spanText source _
  | value hvalue => exact madeFrom_literal (madeFrom_token (hpart.mem List.mem_cons_self)) hvalue
  | link => exact madeFrom_link source _
  | hook => exact madeFrom_hookLabel source _
  | call => exact madeFrom_callNode hpart _ _
  | hooked => exact madeFrom_callNode (call_part_hooked.trans hpart) _ _

/-- The label of every node of a tree, at whatever depth, is made from the passage. -/
theorem madeFrom_label {catalog : Catalog} {program : Program} (hparse : parse catalog source = .ok program)
    {level : Level} {nodes : List Node} (hsiblings : Siblings program level nodes) {node : Node}
    (hmem : node ∈ nodes) : MadeFrom source node.label := by
  rcases hsiblings.origin hparse with ⟨phrases, hlevel, hnodes⟩
  rcases exists_becomes_of_mem (hlevel.becomes hnodes) hmem with ⟨phrase, hphrase, hbecomes⟩
  exact hbecomes.madeFrom (hlevel.part_of_mem hphrase)

end

end PassageMarkup
