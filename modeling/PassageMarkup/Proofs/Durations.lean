/-
Module: PassageMarkup.Proofs.Durations
Layer: Proofs
Purpose: Which durations last how long. The scan takes a duration with digits of any script, its literal keeps
  the spelling, and only then is the numeral before the unit read, which takes ASCII digits alone. Hence
  a duration among the arguments of a call has a length exactly if all its digits are ASCII digits, while a
  number with other digits is no literal in the first place.
Imports: Proofs.Classification, Proofs.LabelReading
Main exports: time_take, readDuration?_milliseconds, readDuration?_seconds, isSome_readDuration?_iff,
  isSpelled_of_siblings, duration_iff_asciiDigits
-/
import PassageMarkup.Proofs.Classification
import PassageMarkup.Proofs.LabelReading

namespace PassageMarkup

open Text Recognise Number

/-! ### Spellings of durations -/

/-- The spellings of the units. -/
def unitSpellings : List (List Char) :=
  [['m', 's'], ['s']]

/-- A duration is spelled as a numeral in full, with digits of any script, and a unit. -/
theorem time_take {cs : List Char} {n : Nat} (h : time cs = some n) :
    ∃ numeral, ∃ unit ∈ unitSpellings, cs.take n = numeral ++ unit ∧ IsNumeral numeral := by
  rcases followedBy_eq_some.1 h with ⟨a, b, hdigits, hunit, rfl⟩
  have hnumeral : IsNumeral (cs.take a) := by
    rcases List.exists_of_findSome?_eq_some hdigits with ⟨choice, hmem, hchoice⟩
    simp only [List.mem_cons, List.not_mem_nil, or_false] at hmem
    rcases hmem with rfl | rfl
    · exact isNumeral_of_fraction hchoice
    · exact isNumeral_of_run hchoice
  have hbehind : (cs.drop a).take b ∈ unitSpellings := by
    rcases List.exists_of_findSome?_eq_some hunit with ⟨choice, hmem, hchoice⟩
    simp only [List.mem_cons, List.not_mem_nil, or_false] at hmem
    rcases hmem with rfl | rfl <;> rcases reserved_eq_some.1 hchoice with ⟨hpre, _, rfl⟩
    · rw [take_of_prefix_self hpre]
      exact List.mem_cons_self
    · rw [take_of_prefix_self hpre]
      exact List.mem_cons_of_mem _ List.mem_cons_self
  exact ⟨cs.take a, _, hbehind, List.take_add, hnumeral⟩

/-- There is no letter of a unit in a numeral. -/
theorem IsNumeral.not_mem {numeral : List Char} (h : IsNumeral numeral) : 'm' ∉ numeral := by
  rcases h with ⟨whole, fraction, rfl, _, hwhole, hfraction⟩
  have hchars : ∀ c ∈ inFull whole fraction, isDigit c = true ∨ c = '.' := by
    apply forall_mem_inFull
    · exact fun c hc => .inl (hwhole c hc)
    · exact .inr rfl
    · exact fun c hc => .inl (hfraction c hc)
  intro hmem
  exact absurd (hchars 'm' hmem) (by decide)

/-! ### Lengths of durations -/

theorem readDuration?_milliseconds (numeral : List Char) :
    readDuration? (numeral ++ ['m', 's']) = Binary64.readChars? numeral := by
  simp [readDuration?]

theorem readDuration?_seconds {numeral : List Char} (h : 'm' ∉ numeral) :
    readDuration? (numeral ++ ['s']) = (Binary64.readChars? numeral).map (·.scale 1000) := by
  have hreverse : (numeral ++ ['s']).reverse = 's' :: numeral.reverse := by simp
  unfold readDuration?
  rw [hreverse]
  split
  · next rest hback =>
    have hmem : 'm' ∈ numeral.reverse := by
      rw [(List.cons.inj hback).2]
      exact List.mem_cons_self
    exact absurd (List.mem_reverse.1 hmem) h
  · next rest _ hback => rw [← (List.cons.inj hback).2, List.reverse_reverse]
  · next hother => exact absurd rfl (hother numeral.reverse)

/-- A test of a text for its digits, which runs over the text only. -/
theorem asciiDigits_of_all {text : List Char}
    (h : (text.all fun c => !isDigit c || isAsciiDigit c) = true) :
    ∀ c ∈ text, isDigit c = true → isAsciiDigit c = true := by
  intro c hc hdigit
  simpa [hdigit] using List.all_eq_true.1 h c hc

/-- What is spelled as a duration has a length exactly if its digits are ASCII digits. -/
theorem isSome_readDuration?_iff {text : List Char} (h : time text = some text.length) :
    (readDuration? text).isSome = true ↔ ∀ c ∈ text, isDigit c = true → isAsciiDigit c = true := by
  rcases time_take h with ⟨numeral, unit, hunit, htext, hnumeral⟩
  rw [List.take_length] at htext
  have hletters : ∀ unit ∈ unitSpellings, (unit.all fun c => !isDigit c || isAsciiDigit c) = true := by
    decide
  have hread : (readDuration? text).isSome = (Binary64.readChars? numeral).isSome := by
    simp only [unitSpellings, List.mem_cons, List.not_mem_nil, or_false] at hunit
    rcases hunit with rfl | rfl
    · rw [htext, readDuration?_milliseconds]
    · rw [htext, readDuration?_seconds hnumeral.not_mem, Option.isSome_map]
  rw [hread, hnumeral.isSome_readChars?_iff, htext, List.forall_mem_append]
  exact (and_iff_left (asciiDigits_of_all (hletters unit hunit))).symm

/-! ### Durations in a passage -/

/-- The literals among the arguments of a call, at whatever depth of an accepted passage, keep their
spelling. -/
theorem isSpelled_of_siblings {catalog : Catalog} {source : String} {program : Program}
    (hparse : parse catalog source = .ok program) {level : Level} {nodes : List Node}
    (hsiblings : Siblings program level nodes) {call : Call} {hook : Option (List Node)}
    (hmem : .call call hook ∈ nodes) :
    ∀ arg ∈ call.args, ∀ literal ∈ arg.literals, literal.IsSpelled := by
  rcases hsiblings.exists_call hparse hmem rfl with ⟨text, pattern, attached, _, hpart, _, hnode⟩
  have hbody : text.body <:+: tokensOf source := by
    refine List.IsInfix.trans ?_ hpart
    exact ⟨[text.head], [text.closing], rfl⟩
  cases pattern with
  | none => cases hnode
  | some pattern =>
      cases hnode
      exact isSpelled_of_part hbody

/-- A duration among the arguments of a known call, by itself or in an operation and at whatever depth of an
accepted passage, has a length exactly if all its digits are ASCII digits. -/
theorem duration_iff_asciiDigits {catalog : Catalog} {source : String} {program : Program}
    (hparse : parse catalog source = .ok program) {level : Level} {nodes : List Node}
    (hsiblings : Siblings program level nodes) {call : Call} {hook : Option (List Node)}
    (hmem : .call call hook ∈ nodes) {arg : Expression} (harg : arg ∈ call.args) {spelling : String}
    (hliteral : .time spelling ∈ arg.literals) :
    (Literal.time spelling).duration? ≠ none ↔
      ∀ c ∈ spelling.toList, isDigit c = true → isAsciiDigit c = true := by
  have hspelled : leading? spelling.toList = some (.time, spelling.toList.length) :=
    isSpelled_of_siblings hparse hsiblings hmem arg harg _ hliteral
  rw [← Option.isSome_iff_ne_none]
  exact isSome_readDuration?_iff (recognise_of_leading hspelled)

/-- Whether a node is a call with a given duration among its arguments. -/
def Node.hasDuration (spelling : String) : Node → Bool
  | .call known _ => known.args.any fun arg => arg.literals.contains (.time spelling)
  | _ => false

theorem Node.hasDuration_iff {spelling : String} {node : Node} :
    node.hasDuration spelling = true ↔
      ∃ call hook arg, node = .call call hook ∧ arg ∈ call.args ∧ .time spelling ∈ arg.literals := by
  cases node <;> simp [hasDuration]

/-- A duration that is added to, inside the hook of a call that is not known. -/
theorem duration_iff_asciiDigits_inside :
    ∃ program children call hook arg,
      parse .builtin "(box:)[(if: $t is 1.5s + 250ms)[so]]" = .ok program ∧
        Siblings program .hook children ∧ .call call hook ∈ children ∧ arg ∈ call.args ∧
        .time "1.5s" ∈ arg.literals ∧ (Literal.time "1.5s").duration? ≠ none := by
  have hany : (parse .builtin "(box:)[(if: $t is 1.5s + 250ms)[so]]").toOption.any
      (fun program => program.nodes.any fun outer => outer.hook?.any fun children =>
        children.any (Node.hasDuration "1.5s")) = true := by decide +kernel
  rcases (Option.any_eq_true _ _).1 hany with ⟨program, hprogram, hnodes⟩
  rcases List.any_eq_true.1 hnodes with ⟨outer, houter, hhook⟩
  rcases (Option.any_eq_true _ _).1 hhook with ⟨children, hchildren, hinner⟩
  rcases List.any_eq_true.1 hinner with ⟨node, hmem, hnode⟩
  rcases Node.hasDuration_iff.1 hnode with ⟨call, hook, arg, rfl, harg, hliteral⟩
  have hparse := except_toOption_eq_some.1 hprogram
  have hsiblings : Siblings program .hook children := .inside .top houter hchildren
  have hlength := (duration_iff_asciiDigits hparse hsiblings hmem harg hliteral).2
    (asciiDigits_of_all (by decide))
  exact ⟨program, children, call, hook, arg, hparse, hsiblings, hmem, harg, hliteral, hlength⟩

/-- The Arabic digit three is a digit of a duration, which then has no length. -/
theorem duration_arabic_digit :
    ∃ program call hook arg,
      parse .builtin "(print: ٣s)" = .ok program ∧ .call call hook ∈ program.nodes ∧
        arg ∈ call.args ∧ .time "٣s" ∈ arg.literals ∧ (Literal.time "٣s").duration? = none := by
  have hany : (parse .builtin "(print: ٣s)").toOption.any
      (fun program => program.nodes.any (Node.hasDuration "٣s")) = true := by decide +kernel
  rcases (Option.any_eq_true _ _).1 hany with ⟨program, hprogram, hnodes⟩
  rcases List.any_eq_true.1 hnodes with ⟨node, hmem, hnode⟩
  rcases Node.hasDuration_iff.1 hnode with ⟨call, hook, arg, rfl, harg, hliteral⟩
  exact ⟨program, call, hook, arg, except_toOption_eq_some.1 hprogram, hmem, harg, hliteral,
    by decide +kernel⟩

end PassageMarkup
