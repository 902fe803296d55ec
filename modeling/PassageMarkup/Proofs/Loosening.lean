/-
Module: PassageMarkup.Proofs.Loosening
Layer: Proofs
Purpose: Loosening a catalog never breaks a passage. A wider category accepts what a narrower one does, so a
  pattern with wider categories and a lower minimum admits what the pattern it replaces admits. A catalog
  that has lost entries and kept others with looser patterns hence accepts every call that the former one
  accepts, and the tree differs only in what becomes of each known call: it carries the new pattern, or it
  is kept as text where its entry is gone.
Imports: Proofs.Agreement, Proofs.CatalogChange
Main exports: Category.rank, Pattern.Loosens, Pattern.Loosens.admits, Catalog.Loosens, Loosened,
  parse_of_loosens
-/
import PassageMarkup.Proofs.Agreement
import PassageMarkup.Proofs.CatalogChange

namespace PassageMarkup

/-! ### Categories and patterns -/

/-- The place of a category in the order from the narrowest to the widest. -/
def Category.rank : Category → Nat
  | .variable => 0
  | .stringLiteral => 1
  | .value => 2
  | .expression => 3

/-- A wider category accepts all that a narrower one does. -/
theorem accepts_of_rank_le {narrow wide : Category} (hrank : narrow.rank ≤ wide.rank)
    {argument : Expression} (h : narrow.accepts argument = true) : wide.accepts argument = true := by
  unfold Category.accepts at h
  split at h
  case h_6 => cases h
  -- for each row of the table, the wider categories accept the expression by rows of their own
  all_goals cases wide <;> first | rfl | exact absurd hrank (by decide)

/-- A pattern of the same shape, with the same keyword or number of places, whose categories are at least
as wide and whose minimum is at most as high. -/
inductive Pattern.Loosens : Pattern → Pattern → Prop where
  | keyword {word : Keyword} {left right left' right' : Category}
      (hleft : left.rank ≤ left'.rank) (hright : right.rank ≤ right'.rank) :
      Loosens (.keyword word left right) (.keyword word left' right')
  | positional {narrow wide : List Category}
      (heach : List.Forall₂ (fun category other => category.rank ≤ other.rank) narrow wide) :
      Loosens (.positional narrow) (.positional wide)
  | variadic {min min' : Nat} {narrow wide : Category} (hmin : min' ≤ min)
      (hrank : narrow.rank ≤ wide.rank) :
      Loosens (.variadic min narrow) (.variadic min' wide)

/-- Arguments that fit some categories one by one fit wider ones. -/
theorem forall₂_accepts_of_rank_le {narrow wide : List Category} {items : List Expression}
    (hrank : List.Forall₂ (fun category other => category.rank ≤ other.rank) narrow wide)
    (h : List.Forall₂ (fun category item => category.accepts item = true) narrow items) :
    List.Forall₂ (fun category item => category.accepts item = true) wide items := by
  induction hrank generalizing items with
  | nil =>
      cases h
      exact .nil
  | cons hfirst _ ih =>
      cases h with
      | cons hitem hitems => exact .cons (accepts_of_rank_le hfirst hitem) (ih hitems)

/-- A looser pattern admits all that the pattern it replaces does. -/
theorem Pattern.Loosens.admits {strict loose : Pattern} (h : strict.Loosens loose)
    {arguments : Arguments} (hadmits : strict.Admits arguments) : loose.Admits arguments := by
  cases h with
  | keyword hleft hright =>
      cases hadmits with
      | keyword hfirst hsecond =>
          exact .keyword (accepts_of_rank_le hleft hfirst) (accepts_of_rank_le hright hsecond)
  | positional heach =>
      cases hadmits with
      | positional hitems => exact .positional (forall₂_accepts_of_rank_le heach hitems)
  | variadic hmin hrank =>
      cases hadmits with
      | variadic hcount hitems =>
          exact .variadic (hmin.trans hcount) fun item hmem =>
            accepts_of_rank_le hrank (hitems item hmem)

/-! ### Catalogs -/

/-- A catalog that has lost some entries of another one and keeps the others, each with its pattern or a
looser one. -/
def Catalog.Loosens (strict loose : Catalog) : Prop :=
  ∀ name pattern, loose.get? name = some pattern →
    ∃ former, strict.get? name = some former ∧ former.Loosens pattern

/-- What becomes of a call of a passage under a looser catalog: a known call carries the pattern of its
entry, or it is kept as the passage spells it where the entry is gone; a call that was not known stays
as it was. -/
inductive Loosened (source : String) (loose : Catalog) : CallForm → CallForm → Prop where
  | kept {call : Call} {pattern : Pattern} (hknown : loose.get? call.name = some pattern) :
      Loosened source loose (.known call) (.known { call with pattern := pattern })
  | removed {call : Call} {raw : String} {inside : List Char} (hgone : loose.get? call.name = none)
      (hpart : raw.toList <:+: source.toList)
      (hraw : raw.toList = '(' :: (call.name.toList ++ ':' :: (inside ++ [')']))) :
      Loosened source loose (.known call) (.unknown call.name raw)
  | unknown {name raw : String} (hunknown : loose.get? name = none) :
      Loosened source loose (.unknown name raw) (.unknown name raw)

section

variable {strict loose : Catalog} {source : String}

/-- A call of a passage passes the check of a looser catalog if it passes that of the former one. -/
theorem CallText.recasts_of_loosens (hloosens : strict.Loosens loose) {call : CallText}
    (hspelled : call.SpelledAt source) :
    call.Recasts source strict loose (Loosened source loose) := by
  intro pattern hcheck
  have hadmitted := check_eq_ok hcheck
  cases hloose : loose.get? call.name with
  | none =>
      refine ⟨none, except_mapError_eq_ok.2 (Catalog.check_eq_ok_none.2 hloose), ?_⟩
      rcases hspelled with ⟨before, inside, behind, hsource, _, hraw⟩
      cases pattern with
      | none => exact .unknown hloose
      | some former => exact .removed hloose ⟨before, behind, hsource.symm⟩ hraw
  | some pattern' =>
      rcases hloosens call.name pattern' hloose with ⟨former, hformer, hpattern⟩
      cases pattern with
      | none =>
          rw [Catalog.check_eq_ok_none.1 hadmitted] at hformer
          cases hformer
      | some known =>
          rcases Catalog.check_eq_ok_some.1 hadmitted with ⟨hknown, hadmits⟩
          cases hknown.symm.trans hformer
          have hok := Catalog.check_eq_ok_some.2 ⟨hloose, hpattern.admits hadmits⟩
          exact ⟨some pattern', except_mapError_eq_ok.2 hok, .kept hloose⟩

end

/-- A passage that a catalog accepts is accepted by every looser one, and the two trees differ only in
what becomes of their calls. -/
theorem parse_of_loosens {strict loose : Catalog} (hloosens : strict.Loosens loose) {source : String}
    {program : Program} (hparse : parse strict source = .ok program) :
    ∃ other, parse loose source = .ok other ∧
      Recast (Loosened source loose) program.nodes other.nodes := by
  refine parse_recast hparse ?_
  intro phrases hread call hcall
  rcases readPhrases_fits hread with ⟨hfits, hyield⟩
  have hpart : yieldAll phrases <:+: tokensOf source := hyield ▸ List.infix_refl _
  rcases fits_of_mem_callsOf hfits hpart call hcall with ⟨hcallFits, hcallPart⟩
  exact CallText.recasts_of_loosens hloosens (call.spelledAt hcallFits hcallPart)

/-- A catalog with one entry left, whose left side may be any value: the known call with that name carries
the new pattern, the call around it is kept as text. -/
theorem parse_of_loosens_trimmed :
    let source := "(if: $n is $m)[(set: $n to $m)]"
    let loose := Catalog.empty.insert "set" (.keyword .to .value .expression)
    let asked : Expression := .comparison .is (.value (.variable "n")) (.value (.variable "m"))
    let assigned : List Expression := [.value (.variable "n"), .value (.variable "m")]
    parse .builtin source = .ok ⟨[.call ⟨"if", none, [asked], .positional [.expression]⟩
      (some [.call ⟨"set", some .to, assigned, .keyword .to .variable .expression⟩ none])]⟩ ∧
    parse loose source = .ok ⟨[.unknownCall "if" "(if: $n is $m)"
      (some [.call ⟨"set", some .to, assigned, .keyword .to .value .expression⟩ none])]⟩ ∧
    Recast (Loosened source loose)
      [.call ⟨"if", none, [asked], .positional [.expression]⟩
        (some [.call ⟨"set", some .to, assigned, .keyword .to .variable .expression⟩ none])]
      [.unknownCall "if" "(if: $n is $m)"
        (some [.call ⟨"set", some .to, assigned, .keyword .to .value .expression⟩ none])] := by
  intro source loose asked assigned
  have hloosens : Catalog.builtin.Loosens loose := by
    intro name pattern hknown
    rw [Catalog.get?_insert] at hknown
    split at hknown
    · next hname =>
      cases hknown
      refine ⟨.keyword .to .variable .expression, ?_, .keyword (by decide) (by decide)⟩
      rw [Catalog.get?, hname]
      decide +kernel
    · cases hknown
  have hparse : parse .builtin source = .ok ⟨[.call ⟨"if", none, [asked], .positional [.expression]⟩
      (some [.call ⟨"set", some .to, assigned, .keyword .to .variable .expression⟩ none])]⟩ := by
    decide +kernel
  have hloose : parse loose source = .ok ⟨[.unknownCall "if" "(if: $n is $m)"
      (some [.call ⟨"set", some .to, assigned, .keyword .to .value .expression⟩ none])]⟩ := by
    decide +kernel
  rcases parse_of_loosens hloosens hparse with ⟨other, hother, hrecast⟩
  obtain rfl := Except.ok.inj (hother.symm.trans hloose)
  exact ⟨hparse, hloose, hrecast⟩

end PassageMarkup
