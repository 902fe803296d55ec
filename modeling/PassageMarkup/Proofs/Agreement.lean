/-
Module: PassageMarkup.Proofs.Agreement
Layer: Proofs
Purpose: Calls agree with the catalog. Checking arguments is deciding a relation, that a pattern admits
  them; so in the tree of an accepted passage every call that is known carries the pattern under its name
  and arguments which that pattern admits, and every other call has a name that the catalog does not know
  and keeps its text as the passage spells it.
Imports: Proofs.CallSpelling, Proofs.Levels
Main exports: Pattern.Admits, Pattern.check_eq_ok_iff, Catalog.check_eq_ok_none, Catalog.check_eq_ok_some,
  Call.Agrees, Node.Agrees, agrees_of_parse
-/
import PassageMarkup.Proofs.CallSpelling
import PassageMarkup.Proofs.Levels

namespace PassageMarkup

open Text

/-! ### What checking decides -/

/-- The arguments that a pattern admits. -/
inductive Pattern.Admits : Pattern → Arguments → Prop where
  | keyword {word : Keyword} {left right : Category} {first second : Expression}
      (hfirst : left.accepts first = true) (hsecond : right.accepts second = true) :
      Admits (.keyword word left right) (.keyword word first second)
  | positional {categories : List Category} {items : List Expression}
      (heach : List.Forall₂ (fun category item => category.accepts item = true) categories items) :
      Admits (.positional categories) (.list items)
  | variadic {min : Nat} {category : Category} {items : List Expression} (hmin : min ≤ items.length)
      (heach : ∀ item ∈ items, category.accepts item = true) :
      Admits (.variadic min category) (.list items)

theorem checkEach_eq_ok_iff {pairs : List (Category × Expression)} {position : Nat} :
    checkEach position pairs = .ok () ↔ ∀ pair ∈ pairs, pair.1.accepts pair.2 = true := by
  induction pairs generalizing position with
  | nil => simp [checkEach]
  | cons pair rest ih =>
      rcases pair with ⟨category, argument⟩
      rw [checkEach, List.forall_mem_cons]
      by_cases haccepts : category.accepts argument = true
      · simp [haccepts, ih]
      · simp [haccepts]

/-- A pattern admits arguments exactly if they pass its check. -/
theorem Pattern.check_eq_ok_iff {pattern : Pattern} {arguments : Arguments} :
    pattern.check arguments = .ok () ↔ pattern.Admits arguments := by
  constructor
  · intro h
    unfold Pattern.check at h
    split at h
    · next wanted left right word first second =>
      split at h
      · next hword =>
        subst hword
        have heach := checkEach_eq_ok_iff.1 h
        exact .keyword (heach (left, first) (by simp)) (heach (right, second) (by simp))
      · cases h
    · cases h
    · next categories items =>
      split at h
      · next hlength =>
        have heach := checkEach_eq_ok_iff.1 h
        apply Admits.positional
        rw [List.forall₂_iff_zip]
        exact ⟨hlength, fun hmem => heach _ hmem⟩
      · cases h
    · next min category items =>
      split at h
      · next hmin =>
        have heach := checkEach_eq_ok_iff.1 h
        exact .variadic hmin fun item hmem => heach (category, item) (List.mem_map_of_mem hmem)
      · cases h
    · cases h
  · intro h
    cases h with
    | keyword hfirst hsecond =>
        rw [Pattern.check, if_pos rfl, checkEach_eq_ok_iff]
        simp [hfirst, hsecond]
    | positional heach =>
        rw [List.forall₂_iff_zip] at heach
        rw [Pattern.check, if_pos heach.1, checkEach_eq_ok_iff]
        exact fun pair hmem => heach.2 hmem
    | variadic hmin heach =>
        rw [Pattern.check, if_pos hmin, checkEach_eq_ok_iff]
        simpa using heach

theorem Catalog.check_eq_ok_none {catalog : Catalog} {name : String} {arguments : Arguments} :
    catalog.check name arguments = .ok none ↔ catalog.get? name = none := by
  unfold Catalog.check
  split
  · next hget => simp [hget]
  · next pattern hget => cases pattern.check arguments <;> simp [hget, Except.map]

theorem Catalog.check_eq_ok_some {catalog : Catalog} {name : String} {arguments : Arguments}
    {pattern : Pattern} : catalog.check name arguments = .ok (some pattern) ↔
      catalog.get? name = some pattern ∧ pattern.Admits arguments := by
  rw [← Pattern.check_eq_ok_iff]
  unfold Catalog.check
  split
  · next hget => simp [hget]
  · next known hget =>
    rw [hget, Option.some.injEq]
    constructor
    · intro h
      cases hcheck : known.check arguments with
      | error mismatch =>
          rw [hcheck] at h
          cases h
      | ok done =>
          rw [hcheck] at h
          cases h
          exact ⟨rfl, hcheck⟩
    · rintro ⟨rfl, hcheck⟩
      rw [hcheck]
      rfl

/-! ### Calls in a tree -/

/-- A call that the catalog knows by its pattern, and whose arguments are as the pattern wants them: joined
by its keyword, one for each place, or enough of one category. -/
structure Call.Agrees (catalog : Catalog) (call : Call) : Prop where
  known : catalog.get? call.name = some call.pattern
  keyword : ∀ word, call.keyword = some word → ∃ left right first second,
    call.pattern = .keyword word left right ∧ call.args = [first, second] ∧
      left.accepts first = true ∧ right.accepts second = true
  list : call.keyword = none →
    (∃ categories, call.pattern = .positional categories ∧
      List.Forall₂ (fun category arg => category.accepts arg = true) categories call.args) ∨
    ∃ min category, call.pattern = .variadic min category ∧ min ≤ call.args.length ∧
      ∀ arg ∈ call.args, category.accepts arg = true

/-- A node that agrees with a catalog and the passage. The text of a call that is not known is a part of
the passage, from the parenthesis, name and colon of the call to its closing parenthesis. -/
def Node.Agrees (catalog : Catalog) (source : String) : Node → Prop
  | .call known _ => known.Agrees catalog
  | .unknownCall name raw _ =>
      catalog.get? name = none ∧ raw.toList <:+: source.toList ∧
        ∃ inside, raw.toList = '(' :: (name.toList ++ ':' :: (inside ++ [')']))
  | .text _ | .literal _ | .hook _ | .link _ => True

section

variable {source : String} {catalog : Catalog} {level : Level}

theorem agrees_of_admits {name : String} {arguments : Arguments} {pattern : Pattern}
    (hknown : catalog.get? name = some pattern) (hadmits : pattern.Admits arguments) :
    (Call.mk name arguments.keyword? arguments.expressions pattern).Agrees catalog := by
  refine ⟨hknown, ?_, ?_⟩
  · intro word hword
    cases hadmits with
    | @keyword _ left right first second hfirst hsecond =>
        cases hword
        exact ⟨left, right, first, second, rfl, rfl, hfirst, hsecond⟩
    | positional | variadic => cases hword
  · intro hnone
    cases hadmits with
    | keyword => cases hnone
    | @positional categories items heach => exact .inl ⟨categories, rfl, heach⟩
    | @variadic min category items hmin heach => exact .inr ⟨min, category, rfl, hmin, heach⟩

/-- The node of a call agrees with the catalog that has checked it. -/
theorem agrees_callNode {text : CallText} {pattern : Option Pattern} {hook : Option (List Node)}
    (hcheck : catalog.check text.name (Arguments.ofTokens text.body) = .ok pattern)
    (hfits : text.Fits) (hpart : text.yield <:+: tokensOf source) :
    (text.node source pattern hook).Agrees catalog source := by
  cases pattern with
  | some pattern =>
      rcases Catalog.check_eq_ok_some.1 hcheck with ⟨hknown, hadmits⟩
      exact agrees_of_admits hknown hadmits
  | none =>
      rcases CallText.spelledAt hfits hpart with ⟨before, inside, behind, hsource, _, hraw⟩
      exact ⟨Catalog.check_eq_ok_none.1 hcheck, ⟨before, behind, hsource.symm⟩, inside, hraw⟩

theorem Becomes.agrees {phrase : Phrase} {node : Node} (h : Becomes source catalog phrase node)
    (hfits : phrase.Fits level) (hpart : phrase.yield <:+: tokensOf source) :
    node.Agrees catalog source := by
  cases h with
  | prose | value | link | hook => trivial
  | call hcheck => exact agrees_callNode hcheck hfits hpart
  | hooked hcheck _ => exact agrees_callNode hcheck hfits.1 (call_part_hooked.trans hpart)

/-- Every node in the tree of an accepted passage, at whatever depth, agrees with the catalog. -/
theorem agrees_of_parse {program : Program} (hparse : parse catalog source = .ok program)
    {nodes : List Node} (h : Siblings program level nodes) {node : Node} (hmem : node ∈ nodes) :
    node.Agrees catalog source := by
  rcases h.origin hparse with ⟨phrases, hlevel, hnodes⟩
  rcases exists_becomes_of_mem (hlevel.becomes hnodes) hmem with ⟨phrase, hphrase, hnode⟩
  exact hnode.agrees (hlevel.fits_of_mem hphrase) (hlevel.part_of_mem hphrase)

end

/-- A known call with a keyword, inside the hook of a call that is not known. -/
theorem agrees_of_parse_inside :
    ∃ program outer children inner,
      parse .builtin "(box: 1 2)[(set: $n to 1 + 2)]" = .ok program ∧ outer ∈ program.nodes ∧
        outer.typeName = "UnknownMacro" ∧ outer.hook? = some children ∧ inner ∈ children ∧
        inner.typeName = "Macro" ∧ outer.Agrees .builtin "(box: 1 2)[(set: $n to 1 + 2)]" ∧
        inner.Agrees .builtin "(box: 1 2)[(set: $n to 1 + 2)]" := by
  have hany : (parse .builtin "(box: 1 2)[(set: $n to 1 + 2)]").toOption.any
      (fun program => program.nodes.any fun outer => outer.typeName == "UnknownMacro" &&
        outer.hook?.any fun children => children.any fun inner => inner.typeName == "Macro") =
        true := by decide +kernel
  cases hparse : parse .builtin "(box: 1 2)[(set: $n to 1 + 2)]" with
  | error e =>
      rw [hparse] at hany
      cases hany
  | ok program =>
      rw [hparse] at hany
      rcases List.any_eq_true.1 hany with ⟨outer, houter, hboth⟩
      rcases Bool.and_eq_true_iff.1 hboth with ⟨hunknown, hhook⟩
      rcases (Option.any_eq_true_iff_get _ _).1 hhook with ⟨hsome, hinner⟩
      rcases List.any_eq_true.1 hinner with ⟨inner, hmem, hname⟩
      have hinside : outer.hook? = some (outer.hook?.get hsome) := (Option.some_get hsome).symm
      exact ⟨program, outer, _, inner, rfl, houter, eq_of_beq hunknown, hinside, hmem,
        eq_of_beq hname, agrees_of_parse hparse .top houter,
        agrees_of_parse hparse (.inside .top houter hinside) hmem⟩

end PassageMarkup
