/-
Module: PassageMarkup.Proofs.FirstOffender
Layer: Proofs
Purpose: What a failed check blames. A pattern asks for a form, with its keyword or its number of arguments,
  and for a category at every position. A check that fails names a position exactly if the form is right;
  it is then the first position whose argument does not belong to the category there, and the mismatch tells
  that category and what the argument is instead. Faults of the form as a whole name no position.
Imports: Proofs.Agreement
Main exports: Pattern.suits, Pattern.categoryAt?, Pattern.Refuses, Pattern.Blames, checkEach_eq_error_iff,
  Pattern.check_of_suits, Pattern.check_eq_error_at_iff, Pattern.check_error_of_not_suits,
  Catalog.check_blames_first
-/
import PassageMarkup.Proofs.Agreement

namespace PassageMarkup

/-- Whether arguments have the form that a pattern asks for: joined by its keyword, or as many as it takes. -/
def Pattern.suits : Pattern → Arguments → Bool
  | .keyword wanted _ _, .keyword word _ _ => word == wanted
  | .positional categories, .list items => categories.length == items.length
  | .variadic min _, .list items => min ≤ items.length
  | _, _ => false

/-- The category that a pattern asks for at a position, counted from zero. -/
def Pattern.categoryAt? : Pattern → Nat → Option Category
  | .keyword _ left right, position => [left, right][position]?
  | .positional categories, position => categories[position]?
  | .variadic _ category, _ => some category

/-- The argument at a position does not belong to the category that the pattern asks for there. -/
structure Pattern.Refuses (pattern : Pattern) (arguments : Arguments) (position : Nat)
    (category : Category) (argument : Expression) : Prop where
  asked : pattern.categoryAt? position = some category
  given : arguments.expressions[position]? = some argument
  refused : category.accepts argument = false

/-- The arguments have the form that the pattern asks for, and this position is the first at which the
pattern refuses one. -/
structure Pattern.Blames (pattern : Pattern) (arguments : Arguments) (position : Nat)
    (category : Category) (argument : Expression) : Prop
    extends pattern.Refuses arguments position category argument where
  suits : pattern.suits arguments = true
  first : ∀ earlier < position, ∀ category argument, ¬ pattern.Refuses arguments earlier category argument

/-! ### Checking from left to right -/

/-- Checking from left to right fails at the first pair that does not agree. -/
theorem checkEach_eq_error_iff {pairs : List (Category × Expression)} {position : Nat}
    {mismatch : Mismatch} : checkEach position pairs = .error mismatch ↔
      ∃ i category argument, pairs[i]? = some (category, argument) ∧
        category.accepts argument = false ∧
        (∀ j < i, ∀ pair, pairs[j]? = some pair → pair.1.accepts pair.2 = true) ∧
        mismatch = .at (position + i) category argument := by
  induction pairs generalizing position with
  | nil => simp [checkEach]
  | cons pair rest ih =>
      rcases pair with ⟨category, argument⟩
      rw [checkEach]
      by_cases haccepts : category.accepts argument = true
      · rw [if_pos haccepts, ih]
        constructor
        · rintro ⟨i, wanted, given, hpair, hrefused, hbefore, rfl⟩
          refine ⟨i + 1, wanted, given, hpair, hrefused, ?_, by rw [Nat.add_right_comm, Nat.add_assoc]⟩
          intro j hj earlier hearlier
          cases j with
          | zero =>
              cases hearlier
              exact haccepts
          | succ j => exact hbefore j (by omega) earlier hearlier
        · rintro ⟨i, wanted, given, hpair, hrefused, hbefore, rfl⟩
          cases i with
          | zero =>
              cases hpair
              rw [haccepts] at hrefused
              cases hrefused
          | succ i =>
              refine ⟨i, wanted, given, hpair, hrefused, ?_, by rw [Nat.add_right_comm, Nat.add_assoc]⟩
              intro j hj earlier hearlier
              exact hbefore (j + 1) (by omega) earlier hearlier
      · rw [if_neg haccepts]
        have hrefused : category.accepts argument = false := by simpa using haccepts
        constructor
        · rintro hfound
          cases hfound
          exact ⟨0, category, argument, rfl, hrefused, by simp, rfl⟩
        · rintro ⟨i, wanted, given, hpair, _, hbefore, rfl⟩
          cases i with
          | zero =>
              cases hpair
              rfl
          | succ i => exact absurd (hbefore 0 (by omega) _ rfl) haccepts

/-! ### One pattern -/

/-- The arguments of a call, each with the category that a pattern asks for at its position. -/
def Pattern.places : Pattern → Arguments → List (Category × Expression)
  | .keyword _ left right, .keyword _ first second => [(left, first), (right, second)]
  | .positional categories, .list items => categories.zip items
  | .variadic _ category, .list items => items.map (category, ·)
  | _, _ => []

section

variable {pattern : Pattern} {arguments : Arguments}

/-- Where the form is right, the check goes through the positions. -/
theorem Pattern.check_of_suits (h : pattern.suits arguments = true) :
    pattern.check arguments = checkEach 0 (pattern.places arguments) := by
  cases pattern with
  | keyword wanted left right =>
      cases arguments with
      | keyword word first second =>
          obtain rfl : word = wanted := by simpa [suits] using h
          rw [check, if_pos rfl]
          rfl
      | list | unparsed => cases h
  | positional categories =>
      cases arguments with
      | list items => rw [check, if_pos (by simpa [suits] using h)]; rfl
      | keyword | unparsed => cases h
  | variadic min category =>
      cases arguments with
      | list items => rw [check, if_pos (by simpa [suits] using h)]; rfl
      | keyword | unparsed => cases h

/-- Where the form is wrong, the check fails without a position. -/
theorem Pattern.check_error_of_not_suits (h : pattern.suits arguments = false) :
    ∃ mismatch, pattern.check arguments = .error mismatch ∧ mismatch.position = none := by
  cases pattern with
  | keyword wanted left right =>
      cases arguments with
      | keyword word first second =>
          have hword : word ≠ wanted := by simpa [suits] using h
          exact ⟨_, by rw [check, if_neg hword], rfl⟩
      | list | unparsed => exact ⟨_, rfl, rfl⟩
  | positional categories =>
      cases arguments with
      | list items => exact ⟨_, by rw [check, if_neg (by simpa [suits] using h)], rfl⟩
      | keyword | unparsed => exact ⟨_, rfl, rfl⟩
  | variadic min category =>
      cases arguments with
      | list items => exact ⟨_, by rw [check, if_neg (by simpa [suits] using h)], rfl⟩
      | keyword | unparsed => exact ⟨_, rfl, rfl⟩

/-- Where the form is right, the places hold every argument with the category of its position. -/
theorem Pattern.places_eq_some_iff (h : pattern.suits arguments = true) {position : Nat}
    {category : Category} {argument : Expression} :
    (pattern.places arguments)[position]? = some (category, argument) ↔
      pattern.categoryAt? position = some category ∧
        arguments.expressions[position]? = some argument := by
  cases pattern with
  | keyword wanted left right =>
      cases arguments with
      | keyword word first second =>
          rcases position with _ | _ | position <;>
            simp [places, categoryAt?, Arguments.expressions]
      | list | unparsed => cases h
  | positional categories =>
      cases arguments with
      | list items => exact List.getElem?_zip_eq_some
      | keyword | unparsed => cases h
  | variadic min wanted =>
      cases arguments with
      | list items =>
          simp only [places, List.getElem?_map, Option.map_eq_some_iff, categoryAt?, Option.some.injEq,
            Arguments.expressions, Prod.mk.injEq]
          constructor
          · rintro ⟨item, hitem, rfl, rfl⟩
            exact ⟨rfl, hitem⟩
          · rintro ⟨rfl, hitem⟩
            exact ⟨argument, hitem, rfl, rfl⟩
      | keyword | unparsed => cases h

/-- A check fails with a position exactly for the argument to blame. -/
theorem Pattern.check_eq_error_at_iff {mismatch : Mismatch} (h : pattern.suits arguments = true) :
    pattern.check arguments = .error mismatch ↔ ∃ position category argument,
      pattern.Blames arguments position category argument ∧
        mismatch = .at position category argument := by
  rw [check_of_suits h, checkEach_eq_error_iff]
  simp only [Nat.zero_add]
  constructor
  · rintro ⟨i, category, argument, hpair, hrefused, hbefore, rfl⟩
    rcases (places_eq_some_iff h).1 hpair with ⟨hasked, hgiven⟩
    refine ⟨i, category, argument, ⟨⟨hasked, hgiven, hrefused⟩, h, ?_⟩, rfl⟩
    intro earlier hlt wanted given hrefuses
    have haccepts := hbefore earlier hlt (wanted, given)
      ((places_eq_some_iff h).2 ⟨hrefuses.asked, hrefuses.given⟩)
    rw [hrefuses.refused] at haccepts
    cases haccepts
  · rintro ⟨i, category, argument, hblames, rfl⟩
    refine ⟨i, category, argument, (places_eq_some_iff h).2 ⟨hblames.asked, hblames.given⟩,
      hblames.refused, ?_, rfl⟩
    rintro j hlt ⟨wanted, given⟩ hpair
    rcases (places_eq_some_iff h).1 hpair with ⟨hasked, hgiven⟩
    rw [← Bool.not_eq_false]
    intro hrefused
    exact hblames.first j hlt wanted given ⟨hasked, hgiven, hrefused⟩

/-- There is at most one argument to blame. -/
theorem Pattern.Blames.unique {position other : Nat} {category wanted : Category}
    {argument given : Expression} (h : pattern.Blames arguments position category argument)
    (h' : pattern.Blames arguments other wanted given) :
    position = other ∧ category = wanted ∧ argument = given := by
  have hposition : position = other := by
    apply Nat.le_antisymm
    · exact Nat.le_of_not_lt fun hlt => h.first other hlt _ _ h'.toRefuses
    · exact Nat.le_of_not_lt fun hlt => h'.first position hlt _ _ h.toRefuses
  subst hposition
  exact ⟨rfl, Option.some.inj (h.asked.symm.trans h'.asked),
    Option.some.inj (h.given.symm.trans h'.given)⟩

end

/-! ### Catalogs -/

section

variable {catalog : Catalog} {name : String} {arguments : Arguments} {mismatch : Mismatch}

/-- A call is refused if its name is known and the pattern under that name refuses the arguments. -/
theorem Catalog.check_eq_error_iff : catalog.check name arguments = .error mismatch ↔
    ∃ pattern, catalog.get? name = some pattern ∧ pattern.check arguments = .error mismatch := by
  unfold Catalog.check
  split
  · next hget => simp [hget]
  · next known hget =>
    rw [hget]
    cases hcheck : known.check arguments <;> simp [Except.map, hcheck]

/-- The mismatch of a failed check: it has a position exactly if the form is right, and then it is about the
argument to blame. -/
structure Pattern.Explains (pattern : Pattern) (arguments : Arguments) (mismatch : Mismatch) : Prop where
  blamed : ∀ position, mismatch.position = some position ↔
    ∃ category argument, pattern.Blames arguments position category argument
  texts : ∀ position category argument, pattern.Blames arguments position category argument →
    mismatch.expected = category.description ∧ mismatch.actual = argument.category
  whole : mismatch.position = none ↔ pattern.suits arguments = false

theorem Pattern.explains_of_check {pattern : Pattern} (h : pattern.check arguments = .error mismatch) :
    pattern.Explains arguments mismatch := by
  cases hsuits : pattern.suits arguments with
  | false =>
      rcases check_error_of_not_suits hsuits with ⟨found, hfound, hposition⟩
      obtain rfl : found = mismatch := Except.error.inj (hfound.symm.trans h)
      have hnone : ∀ position category argument,
          ¬ pattern.Blames arguments position category argument := by
        intro position category argument hblames
        rw [hblames.suits] at hsuits
        cases hsuits
      refine ⟨?_, ?_, ?_⟩
      · intro position
        simp [hposition, hnone]
      · intro position category argument hblames
        exact absurd hblames (hnone position category argument)
      · exact iff_of_true hposition hsuits
  | true =>
      rcases (check_eq_error_at_iff hsuits).1 h with ⟨found, category, argument, hblames, rfl⟩
      refine ⟨?_, ?_, ?_⟩
      · intro position
        constructor
        · intro hposition
          obtain rfl : found = position := Option.some.inj hposition
          exact ⟨category, argument, hblames⟩
        · rintro ⟨wanted, given, hother⟩
          rw [(hother.unique hblames).1]
          rfl
      · intro position wanted given hother
        rcases hother.unique hblames with ⟨_, rfl, rfl⟩
        exact ⟨rfl, rfl⟩
      · simp [Mismatch.at, hsuits]

end

/-- Checking a call is exact. It has nothing to say about a name exactly if the catalog does not know it; it
answers a pattern exactly if that is the one under the name and admits the arguments; and it fails exactly if
the pattern under the name does not admit them. A failure blames the first argument that does not belong to
the category at its position, if the form of the arguments is right, and no argument otherwise. -/
theorem Catalog.check_blames_first (catalog : Catalog) (name : String) (arguments : Arguments) :
    (catalog.check name arguments = .ok none ↔ catalog.get? name = none) ∧
      (∀ pattern, catalog.check name arguments = .ok (some pattern) ↔
        catalog.get? name = some pattern ∧ pattern.Admits arguments) ∧
      ((∃ mismatch, catalog.check name arguments = .error mismatch) ↔
        ∃ pattern, catalog.get? name = some pattern ∧ ¬ pattern.Admits arguments) ∧
      ∀ pattern mismatch, catalog.get? name = some pattern →
        catalog.check name arguments = .error mismatch → pattern.Explains arguments mismatch := by
  refine ⟨check_eq_ok_none, fun pattern => check_eq_ok_some, ?_, ?_⟩
  · constructor
    · rintro ⟨mismatch, herror⟩
      rcases check_eq_error_iff.1 herror with ⟨pattern, hget, hcheck⟩
      refine ⟨pattern, hget, ?_⟩
      rw [← Pattern.check_eq_ok_iff, hcheck]
      rintro ⟨⟩
    · rintro ⟨pattern, hget, hnot⟩
      rw [← Pattern.check_eq_ok_iff] at hnot
      cases hcheck : pattern.check arguments with
      | ok done => exact absurd hcheck hnot
      | error mismatch => exact ⟨mismatch, check_eq_error_iff.2 ⟨pattern, hget, hcheck⟩⟩
  · intro pattern mismatch hget herror
    rcases check_eq_error_iff.1 herror with ⟨known, hknown, hcheck⟩
    obtain rfl : known = pattern := Option.some.inj (hknown.symm.trans hget)
    exact Pattern.explains_of_check hcheck

/-- Three arguments of which the second and the third are refused: the second is blamed. -/
theorem Catalog.check_blames_first_of_two :
    let catalog := Catalog.empty.insert "trio" (.positional [.variable, .stringLiteral, .variable])
    let arguments := Arguments.list
      [.value (.variable "x"), .value (.boolean true), .value (.boolean false)]
    ∃ pattern mismatch, catalog.get? "trio" = some pattern ∧
      catalog.check "trio" arguments = .error mismatch ∧ pattern.Explains arguments mismatch ∧
        mismatch = ⟨"string", "boolean", some 1⟩ := by
  intro catalog arguments
  have hget : catalog.get? "trio" = some (.positional [.variable, .stringLiteral, .variable]) := by
    decide +kernel
  have herror : catalog.check "trio" arguments = .error ⟨"string", "boolean", some 1⟩ := by
    decide +kernel
  have hexact := Catalog.check_blames_first catalog "trio" arguments
  exact ⟨_, _, hget, herror, hexact.2.2.2 _ _ hget herror, rfl⟩

end PassageMarkup
