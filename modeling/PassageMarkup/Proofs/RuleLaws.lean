/-
Module: PassageMarkup.Proofs.RuleLaws
Layer: Proofs
Purpose: What the combinators of rules do, said once for each of them. A rule yields a value if it takes
  tokens and has met no failure beyond them; it stalls if the furthest failure on the way is a given one
  further on. Behind a rule that has stalled, a failure nearer to the front gives way to the one that was
  kept. A rule that is defined by itself satisfies its equation, and a repetition is taken apart by its
  items.
Imports: Grammar.Rule
Main exports: Rule.Yields, Rule.Stalls, Rule.recursive_eq, Rule.Agrees, Loops, Loops.stalls_many,
  Rule.StaysIn, takes_andThen, takes_orElse
-/
import PassageMarkup.Grammar.Rule

namespace PassageMarkup

variable {α β : Type}

/-! ### The further of two failures -/

theorem further_of_le {spare : Option Fault} {fault : Fault}
    (h : ∀ other ∈ spare, fault.length ≤ other.length) : further spare fault = fault := by
  cases spare with
  | none => rfl
  | some other => exact if_neg (Nat.not_lt.2 (h other rfl))

theorem further_of_lt {stuck fault : Fault} (h : stuck.length < fault.length ∨ fault = stuck) :
    further (some stuck) fault = stuck := by
  rcases h with hlt | rfl
  · exact if_pos hlt
  · exact ite_self _

theorem length_le_of_beyond {stuck fault : Fault} (h : stuck.length < fault.length ∨ fault = stuck) :
    stuck.length ≤ fault.length := by
  rcases h with hlt | rfl
  · exact Nat.le_of_lt hlt
  · exact Nat.le_refl _

/-- The further of two failures is one of them. -/
theorem further_cases (spare : Option Fault) (fault : Fault) :
    further spare fault = fault ∨ further spare fault ∈ spare := by
  cases spare with
  | none => exact .inl rfl
  | some other =>
      rw [further]
      split
      · exact .inr rfl
      · exact .inl rfl

theorem mem_furthest {first second : Option Fault} {fault : Fault} (h : fault ∈ furthest first second) :
    fault ∈ first ∨ fault ∈ second := by
  cases second with
  | none => exact .inl h
  | some other =>
      obtain rfl := Option.some.inj h
      rcases further_cases first other with hsame | hmem
      · exact .inr (congrArg some hsame.symm)
      · exact .inl hmem

/-! ### Answers of a rule -/

/-- A rule takes tokens with a value, and nothing on the way has failed beyond them. -/
structure Rule.Yields (rule : Rule α) (tokens : List Token) (value : α) (rest : List Token) : Prop where
  taken : ∃ spare, rule tokens = .taken value rest spare ∧ ∀ fault ∈ spare, rest.length ≤ fault.length
  shrinks : rest.length ≤ tokens.length

/-- A rule takes tokens with a value, and the furthest failure on the way is `stuck`. -/
structure Rule.Stalls (rule : Rule α) (tokens : List Token) (value : α) (rest : List Token)
    (stuck : Fault) : Prop where
  taken : rule tokens = .taken value rest (some stuck)
  beyond : stuck.length ≤ rest.length
  shrinks : rest.length ≤ tokens.length

/-- A rule takes tokens with a value. -/
def Rule.Takes (rule : Rule α) (tokens : List Token) (value : α) (rest : List Token) : Prop :=
  ∃ spare, rule tokens = .taken value rest spare

theorem Rule.Yields.takes {rule : Rule α} {tokens rest : List Token} {value : α}
    (h : rule.Yields tokens value rest) : rule.Takes tokens value rest := by
  rcases h.taken with ⟨spare, htaken, _⟩
  exact ⟨spare, htaken⟩

theorem Rule.Yields.of_eq {rule other : Rule α} {tokens rest : List Token} {value : α}
    (h : rule.Yields tokens value rest) (hsame : other tokens = rule tokens) :
    other.Yields tokens value rest := by
  rcases h.taken with ⟨spare, htaken, hspare⟩
  exact ⟨⟨spare, hsame.trans htaken, hspare⟩, h.shrinks⟩

theorem Rule.Stalls.yields {rule : Rule α} {tokens rest : List Token} {value : α}
    (h : rule.Stalls tokens value rest rest) : rule.Yields tokens value rest := by
  refine ⟨⟨some rest, h.taken, ?_⟩, h.shrinks⟩
  rintro fault ⟨⟩
  exact Nat.le_refl _

/-- A rule takes tokens in one way. -/
theorem Rule.Takes.unique {rule : Rule α} {tokens rest other : List Token} {value value' : α}
    (h : rule.Takes tokens value rest) (h' : rule.Takes tokens value' other) :
    value = value' ∧ rest = other := by
  rcases h with ⟨spare, h⟩
  rcases h' with ⟨spare', h'⟩
  cases h.symm.trans h'
  exact ⟨rfl, rfl⟩

theorem Rule.Takes.not_failed {rule : Rule α} {tokens rest : List Token} {value : α} {fault : Fault}
    (h : rule.Takes tokens value rest) : rule tokens ≠ .failed fault := by
  rcases h with ⟨spare, h⟩
  rw [h]
  exact nofun

theorem Rule.Stalls.takes {rule : Rule α} {tokens rest : List Token} {value : α} {stuck : Fault}
    (h : rule.Stalls tokens value rest stuck) : rule.Takes tokens value rest :=
  ⟨_, h.taken⟩

theorem Rule.Takes.run {rule : Rule α} {tokens rest : List Token} {value : α}
    (h : rule.Takes tokens value rest) : rule.run tokens = .ok value := by
  rcases h with ⟨spare, h⟩
  rw [Rule.run, h]

theorem run_of_failed {rule : Rule α} {tokens : List Token} {fault : Fault}
    (h : rule tokens = .failed fault) :
    rule.run tokens = .error [⟨tokens.length - fault.length, fault.head?⟩] := by
  rw [Rule.run, h]

/-! ### Single tokens -/

/-- What is left behind a token and some others is shorter. -/
theorem length_lt_behind (token : Token) (front rest : List Token) :
    rest.length < (token :: (front ++ rest)).length := by
  simp only [List.length_cons, List.length_append]
  omega

section Single

variable {value? : Token → Option α} {value : α} {token : Token} {tokens rest : List Token}

theorem yields_pure (value : α) (tokens : List Token) : (Rule.pure value).Yields tokens value tokens :=
  ⟨⟨none, rfl, nofun⟩, Nat.le_refl _⟩

theorem yields_take (h : value? token = some value) :
    (Rule.take value?).Yields (token :: rest) value rest := by
  refine ⟨⟨none, ?_, nofun⟩, Nat.le_succ _⟩
  rw [Rule.take, h]

theorem failed_take (h : ∀ token ∈ tokens.head?, value? token = none) :
    Rule.take value? tokens = .failed tokens := by
  cases tokens with
  | nil => rfl
  | cons token rest => rw [Rule.take, h token rfl]

theorem yields_token {accepts : Token → Bool} (h : accepts token = true) :
    (Rule.token accepts).Yields (token :: rest) token rest :=
  yields_take (by rw [h]; rfl)

theorem failed_token {accepts : Token → Bool} (h : ∀ token ∈ tokens.head?, accepts token = false) :
    Rule.token accepts tokens = .failed tokens :=
  failed_take fun token hmem => by rw [h token hmem]; rfl

theorem yields_kind {kind : Kind} (h : token.kind = kind) :
    (Rule.kind kind).Yields (token :: rest) token rest :=
  yields_token (beq_iff_eq.2 h)

theorem failed_kind {kind : Kind} (h : ∀ token ∈ tokens.head?, token.kind ≠ kind) :
    Rule.kind kind tokens = .failed tokens :=
  failed_token fun token hmem => beq_eq_false_iff_ne.2 (h token hmem)

/-- A rule for one token fails where it stands. -/
theorem eq_of_failed_take {fault : Fault} (h : Rule.take value? tokens = .failed fault) : fault = tokens := by
  cases tokens with
  | nil =>
      cases h
      rfl
  | cons token later =>
      rw [Rule.take] at h
      split at h
      · cases h
      · cases h
        rfl

theorem takes_take : (Rule.take value?).Takes tokens value rest →
    ∃ token, tokens = token :: rest ∧ value? token = some value := by
  rintro ⟨spare, h⟩
  cases tokens with
  | nil => cases h
  | cons token later =>
      rw [Rule.take] at h
      split at h
      · next hvalue =>
        cases h
        exact ⟨token, rfl, hvalue⟩
      · cases h

theorem takes_token {accepts : Token → Bool} (h : (Rule.token accepts).Takes tokens token rest) :
    tokens = token :: rest ∧ accepts token = true := by
  rcases takes_take h with ⟨other, rfl, hvalue⟩
  split at hvalue
  · next haccepts =>
    cases hvalue
    exact ⟨rfl, haccepts⟩
  · cases hvalue

theorem takes_kind {kind : Kind} (h : (Rule.kind kind).Takes tokens token rest) :
    tokens = token :: rest ∧ token.kind = kind := by
  rcases takes_token h with ⟨htokens, hkind⟩
  exact ⟨htokens, eq_of_beq hkind⟩

end Single

/-! ### Values, sequences and choices -/

section Compound

variable {first : Rule α} {second : Rule β} {value : α} {other : β} {tokens middle rest : List Token}
  {fault stuck : Fault}

theorem Rule.Yields.map {rule : Rule α} (h : rule.Yields tokens value rest) (f : α → β) :
    (rule.map f).Yields tokens (f value) rest := by
  rcases h.taken with ⟨spare, htaken, hspare⟩
  exact ⟨⟨spare, congrArg (Answer.map f) htaken, hspare⟩, h.shrinks⟩

theorem failed_map {rule : Rule α} (h : rule tokens = .failed fault) (f : α → β) :
    rule.map f tokens = .failed fault :=
  congrArg (Answer.map f) h

theorem takes_map {rule : Rule α} {f : α → β} (h : (rule.map f).Takes tokens other rest) :
    ∃ value, rule.Takes tokens value rest ∧ f value = other := by
  rcases h with ⟨spare, h⟩
  rw [Rule.map] at h
  cases hrule : rule tokens with
  | failed fault =>
      rw [hrule] at h
      cases h
  | taken value later more =>
      rw [hrule] at h
      cases h
      exact ⟨value, ⟨_, hrule⟩, rfl⟩

theorem Rule.Yields.andThen (h : first.Yields tokens value middle) (h' : second.Yields middle other rest) :
    (first.andThen second).Yields tokens (value, other) rest := by
  rcases h.taken with ⟨spare, htaken, hspare⟩
  rcases h'.taken with ⟨more, htaken', hmore⟩
  refine ⟨⟨furthest spare more, ?_, ?_⟩, Nat.le_trans h'.shrinks h.shrinks⟩
  · simp only [Rule.andThen, htaken, htaken']
  · intro fault hmem
    rcases mem_furthest hmem with hmem | hmem
    · exact Nat.le_trans h'.shrinks (hspare fault hmem)
    · exact hmore fault hmem

theorem Rule.Stalls.map {rule : Rule α} (h : rule.Stalls tokens value rest stuck) (f : α → β) :
    (rule.map f).Stalls tokens (f value) rest stuck :=
  ⟨congrArg (Answer.map f) h.taken, h.beyond, h.shrinks⟩

/-- What the second rule stalls at is further than anything that the first has met. -/
theorem Rule.Yields.andThen_stalls (h : first.Yields tokens value middle)
    (h' : second.Stalls middle other rest stuck) :
    (first.andThen second).Stalls tokens (value, other) rest stuck := by
  rcases h.taken with ⟨spare, htaken, hspare⟩
  refine ⟨?_, h'.beyond, Nat.le_trans h'.shrinks h.shrinks⟩
  have hfurther : further spare stuck = stuck := further_of_le fun fault hmem =>
    Nat.le_trans h'.beyond (Nat.le_trans h'.shrinks (hspare fault hmem))
  simp only [Rule.andThen, htaken, h'.taken, furthest, hfurther]

theorem failed_andThen_left (h : first tokens = .failed fault) (second : Rule β) :
    first.andThen second tokens = .failed fault := by
  rw [Rule.andThen, h]

theorem Rule.Yields.failed_andThen (h : first.Yields tokens value middle)
    (h' : second middle = .failed stuck) (hbeyond : stuck.length ≤ middle.length) :
    first.andThen second tokens = .failed stuck := by
  rcases h.taken with ⟨spare, htaken, hspare⟩
  have hfurther : further spare stuck = stuck := further_of_le fun fault hmem =>
    Nat.le_trans hbeyond (hspare fault hmem)
  simp only [Rule.andThen, htaken, h', hfurther]

/-- Behind a rule that has stalled the kept failure counts, if it is further than the new one. -/
theorem Rule.Stalls.failed_andThen (h : first.Stalls tokens value middle stuck)
    (h' : second middle = .failed fault) (hbeyond : stuck.length < fault.length ∨ fault = stuck) :
    first.andThen second tokens = .failed stuck := by
  simp only [Rule.andThen, h.taken, h', further_of_lt hbeyond]

theorem Rule.Takes.andThen (h : first.Takes tokens value middle) (h' : second.Takes middle other rest) :
    (first.andThen second).Takes tokens (value, other) rest := by
  rcases h with ⟨spare, h⟩
  rcases h' with ⟨more, h'⟩
  refine ⟨furthest spare more, ?_⟩
  simp only [Rule.andThen, h, h']

theorem Rule.Takes.map {rule : Rule α} (h : rule.Takes tokens value rest) (f : α → β) :
    (rule.map f).Takes tokens (f value) rest := by
  rcases h with ⟨spare, h⟩
  exact ⟨spare, congrArg (Answer.map f) h⟩

theorem takes_andThen {pair : α × β} (h : (first.andThen second).Takes tokens pair rest) :
    ∃ middle, first.Takes tokens pair.1 middle ∧ second.Takes middle pair.2 rest := by
  rcases h with ⟨spare, h⟩
  rw [Rule.andThen] at h
  split at h
  · cases h
  · next value middle kept hfirst =>
    split at h
    · next more hsecond =>
      cases h
      exact ⟨middle, ⟨kept, hfirst⟩, ⟨_, hsecond⟩⟩
    · cases h

theorem Rule.Yields.orElse {rule : Rule α} (h : rule.Yields tokens value rest) (alternative : Rule α) :
    (rule.orElse alternative).Yields tokens value rest := by
  rcases h.taken with ⟨spare, htaken, hspare⟩
  refine ⟨⟨spare, ?_, hspare⟩, h.shrinks⟩
  rw [Rule.orElse, htaken]

theorem Rule.Stalls.orElse {rule : Rule α} (h : rule.Stalls tokens value rest stuck)
    (alternative : Rule α) : (rule.orElse alternative).Stalls tokens value rest stuck := by
  refine ⟨?_, h.beyond, h.shrinks⟩
  rw [Rule.orElse, h.taken]

/-- The second alternative yields, if the first has not failed beyond what the second takes. -/
theorem Rule.Yields.orElse_right {rule alternative : Rule α} (h : alternative.Yields tokens value rest)
    (hfirst : rule tokens = .failed fault) (hfault : rest.length ≤ fault.length) :
    (rule.orElse alternative).Yields tokens value rest := by
  rcases h.taken with ⟨spare, htaken, hspare⟩
  refine ⟨⟨furthest (some fault) spare, ?_, ?_⟩, h.shrinks⟩
  · simp only [Rule.orElse, hfirst, htaken]
  · intro other hmem
    rcases mem_furthest hmem with hmem | hmem
    · obtain rfl := Option.some.inj hmem
      exact hfault
    · exact hspare other hmem

/-- Where both alternatives fail, the further failure counts. -/
theorem failed_orElse {rule alternative : Rule α} (h : rule tokens = .failed fault)
    (h' : alternative tokens = .failed stuck) (hbeyond : stuck.length ≤ fault.length) :
    rule.orElse alternative tokens = .failed stuck := by
  have hfurther : further (some fault) stuck = stuck := further_of_le (by simpa using hbeyond)
  simp only [Rule.orElse, h, h', hfurther]

theorem failed_orElse_left {rule alternative : Rule α} (h : rule tokens = .failed stuck)
    (h' : alternative tokens = .failed fault) (hbeyond : stuck.length < fault.length) :
    rule.orElse alternative tokens = .failed stuck := by
  simp only [Rule.orElse, h, h', further_of_lt (.inl hbeyond)]

theorem takes_orElse {rule alternative : Rule α} (h : (rule.orElse alternative).Takes tokens value rest) :
    rule.Takes tokens value rest ∨ alternative.Takes tokens value rest := by
  rcases h with ⟨spare, h⟩
  rw [Rule.orElse] at h
  split at h
  · next kept hfirst =>
    cases h
    exact .inl ⟨_, hfirst⟩
  · split at h
    · next more hsecond =>
      cases h
      exact .inr ⟨more, hsecond⟩
    · cases h

/-- Where a rule fails, a token unlike it is looked at and given back. -/
theorem yields_unlike_rewind {rule : Rule α} {token : Token} (h : rule (token :: rest) = .failed fault) :
    rule.unlike.rewind.Yields (token :: rest) token (token :: rest) := by
  refine ⟨⟨none, ?_, nofun⟩, Nat.le_refl _⟩
  rw [Rule.rewind, Rule.unlike, h]
  rfl

/-- Where a rule takes tokens, and where none is left, there is no token unlike it. -/
theorem failed_unlike_rewind {rule : Rule α}
    (h : tokens ≠ [] → ∃ value rest, rule.Takes tokens value rest) :
    rule.unlike.rewind tokens = .failed tokens := by
  rw [Rule.rewind, Rule.unlike]
  cases hrule : rule tokens with
  | taken value rest spare => rfl
  | failed fault =>
      cases tokens with
      | nil => rfl
      | cons token later =>
          rcases h (List.cons_ne_nil _ _) with ⟨value, rest, htakes⟩
          exact absurd hrule htakes.not_failed

theorem Rule.Yields.optional {rule : Rule α} (h : rule.Yields tokens value rest) :
    rule.optional.Yields tokens (some value) rest :=
  (h.map some).orElse _

theorem yields_optional_none {rule : Rule α} (h : rule tokens = .failed fault)
    (hfault : tokens.length ≤ fault.length) : rule.optional.Yields tokens none tokens :=
  (yields_pure none tokens).orElse_right (failed_map h some) hfault

theorem takes_optional {rule : Rule α} {value : Option α} (h : rule.optional.Takes tokens value rest) :
    (∃ taken, value = some taken ∧ rule.Takes tokens taken rest) ∨ value = none ∧ rest = tokens := by
  rcases takes_orElse h with hsome | ⟨spare, hnone⟩
  · rcases takes_map hsome with ⟨taken, htaken, rfl⟩
    exact .inl ⟨taken, rfl, htaken⟩
  · cases hnone
    exact .inr ⟨rfl, rfl⟩

end Compound

/-! ### Recursion -/

/-- Two rules answer the same on up to so many tokens. -/
def Rule.Agrees (size : Nat) (rule other : Rule α) : Prop :=
  ∀ tokens : List Token, tokens.length ≤ size → rule tokens = other tokens

theorem below_of_lt {rule : Rule α} {size : Nat} {tokens : List Token} (h : tokens.length < size) :
    Rule.below size rule tokens = rule tokens :=
  if_pos h

theorem agrees_below {rule : Rule α} {size limit : Nat} (h : size < limit) :
    (Rule.below limit rule).Agrees size rule := fun _ htokens =>
  below_of_lt (Nat.lt_of_le_of_lt htokens h)

theorem below_congr {rule other : Rule α} {size : Nat}
    (h : ∀ tokens : List Token, tokens.length < size → rule tokens = other tokens) :
    Rule.below size rule = Rule.below size other := by
  funext tokens
  rw [Rule.below, Rule.below]
  split
  · next hlt => exact h tokens hlt
  · rfl

/-- Looking more often into a rule than there are tokens changes nothing. -/
theorem unroll_eq (body : Rule α → Rule α) (tokens : List Token) :
    ∀ depth, tokens.length < depth → Rule.unroll body depth tokens = Rule.recursive body tokens := by
  intro depth hdepth
  cases depth with
  | zero => cases hdepth
  | succ depth =>
      -- both look into themselves on fewer tokens only, and there they agree
      have hsame : Rule.below tokens.length (Rule.unroll body depth) =
          Rule.below tokens.length (Rule.unroll body tokens.length) := by
        apply below_congr
        intro later hlater
        rw [unroll_eq body later depth (by omega), unroll_eq body later tokens.length hlater]
      rw [Rule.recursive, Rule.unroll, Rule.unroll, hsame]
termination_by tokens.length

/-- A rule that is defined by itself is its definition, in which it stands for itself on fewer tokens. -/
theorem Rule.recursive_eq (body : Rule α → Rule α) (tokens : List Token) :
    Rule.recursive body tokens = body (Rule.below tokens.length (Rule.recursive body)) tokens := by
  have hsame : Rule.below tokens.length (Rule.unroll body tokens.length) =
      Rule.below tokens.length (Rule.recursive body) :=
    below_congr fun later hlater => unroll_eq body later _ hlater
  rw [Rule.recursive, Rule.unroll, hsame]

/-! ### Repetition -/

/-- What a repetition takes: items one after the other, each of at least one token, until one fails. -/
inductive Loops (rule : Rule α) (stuck : Fault) : List Token → List α → List Token → Prop where
  | stop {tokens : List Token} (hfailed : rule tokens = .failed stuck)
      (hbeyond : stuck.length ≤ tokens.length) : Loops rule stuck tokens [] tokens
  | step {tokens middle rest : List Token} {value : α} {values : List α}
      (hitem : rule.Yields tokens value middle) (hshorter : middle.length < tokens.length)
      (hothers : Loops rule stuck middle values rest) : Loops rule stuck tokens (value :: values) rest

/-- Rules that agree on the tokens of a repetition can be repeated for each other. -/
theorem Loops.of_agrees {rule other : Rule α} {stuck : Fault} {tokens rest : List Token}
    {values : List α} (h : Loops rule stuck tokens values rest) {size : Nat}
    (hagrees : other.Agrees size rule) (hsize : tokens.length ≤ size) :
    Loops other stuck tokens values rest := by
  induction h with
  | stop hfailed hbeyond => exact .stop ((hagrees _ hsize).trans hfailed) hbeyond
  | step hitem hshorter _ ih =>
      exact .step (hitem.of_eq (hagrees _ hsize)) hshorter (ih (by omega))

/-- A repetition is an item and the repetition on fewer tokens, or nothing. -/
theorem Rule.many_eq (rule : Rule α) (tokens : List Token) :
    rule.many tokens = ((rule.andThen (Rule.below tokens.length rule.many)).map
      fun (value, values) => value :: values).orElse (.pure []) tokens :=
  Rule.recursive_eq _ tokens

/-- A repetition stalls where its last item fails. -/
theorem Loops.stalls_many {rule : Rule α} {stuck : Fault} {tokens rest : List Token} {values : List α}
    (h : Loops rule stuck tokens values rest) : rule.many.Stalls tokens values rest stuck := by
  induction h with
  | @stop tokens hfailed hbeyond =>
      have hitem := failed_map (failed_andThen_left hfailed (Rule.below tokens.length rule.many))
        fun (value, values) => value :: values
      refine ⟨?_, hbeyond, Nat.le_refl _⟩
      rw [Rule.many_eq, Rule.orElse, hitem]
      rfl
  | step hitem hshorter _ ih =>
      have hbelow := (below_of_lt hshorter).trans ih.taken
      have hboth := hitem.andThen_stalls ⟨hbelow, ih.beyond, ih.shrinks⟩
      have hstalls := (hboth.map fun (value, values) => value :: values).orElse (.pure [])
      exact ⟨(Rule.many_eq _ _).trans hstalls.taken, hstalls.beyond, hstalls.shrinks⟩

theorem takes_many {rule : Rule α} {tokens rest : List Token} {values : List α}
    (h : rule.many.Takes tokens values rest) :
    values = [] ∧ rest = tokens ∨ ∃ value others middle, values = value :: others ∧
      rule.Takes tokens value middle ∧ middle.length < tokens.length ∧
      rule.many.Takes middle others rest := by
  rcases h with ⟨spare, h⟩
  rw [Rule.many_eq] at h
  rcases takes_orElse ⟨spare, h⟩ with hmore | ⟨_, hnone⟩
  · rcases takes_map hmore with ⟨⟨value, others⟩, hboth, rfl⟩
    rcases takes_andThen hboth with ⟨middle, hitem, more, hothers⟩
    rw [Rule.below] at hothers
    split at hothers
    · next hshorter => exact .inr ⟨value, others, middle, rfl, hitem, hshorter, more, hothers⟩
    · cases hothers
  · cases hnone
    exact .inl ⟨rfl, rfl⟩

/-- A run of accepted tokens is taken as a whole, up to the first that is not accepted. -/
theorem loops_token {accepts : Token → Bool} {run rest : List Token}
    (hrun : ∀ token ∈ run, accepts token = true) (hrest : ∀ token ∈ rest.head?, accepts token = false) :
    Loops (Rule.token accepts) rest (run ++ rest) run rest := by
  induction run with
  | nil => exact .stop (failed_token hrest) (Nat.le_refl _)
  | cons token run ih =>
      rcases List.forall_mem_cons.1 hrun with ⟨htoken, hothers⟩
      exact .step (yields_token htoken) (Nat.lt_succ_self _) (ih hothers)

/-- All tokens there are, are tokens. -/
theorem takes_any_many (tokens : List Token) : Rule.any.many.Takes tokens tokens [] := by
  have hloops : Loops Rule.any [] (tokens ++ []) tokens [] := loops_token (fun _ _ => rfl) nofun
  rw [List.append_nil] at hloops
  exact hloops.stalls_many.takes

/-- An item and a repetition behind it are taken together. -/
theorem Rule.Yields.many1 {rule : Rule α} {stuck : Fault} {tokens middle rest : List Token} {value : α}
    {values : List α} (hitem : rule.Yields tokens value middle) (h : Loops rule stuck middle values rest) :
    rule.many1.Stalls tokens (value :: values) rest stuck :=
  (hitem.andThen_stalls h.stalls_many).map _

/-! ### Where a rule can look -/

/-- All tokens in front of some others that end a list satisfy a condition. -/
def Passes (P : Token → Prop) (tokens rest : List Token) : Prop :=
  ∃ front, tokens = front ++ rest ∧ ∀ token ∈ front, P token

/-- The tokens that an answer is about, up to what it leaves and up to all failures on the way, satisfy a
condition. -/
inductive Answer.StaysIn (P : Token → Prop) (tokens : List Token) : Answer α → Prop where
  | taken {value : α} {rest : List Token} {spare : Option Fault} (hrest : Passes P tokens rest)
      (hspare : ∀ fault ∈ spare, Passes P tokens fault) : StaysIn P tokens (.taken value rest spare)
  | failed {fault : Fault} (hfault : Passes P tokens fault) : StaysIn P tokens (.failed fault)

/-- A rule never looks behind a token that does not satisfy a condition. -/
def Rule.StaysIn (P : Token → Prop) (rule : Rule α) : Prop :=
  ∀ tokens, (rule tokens).StaysIn P tokens

section StaysIn

variable {P : Token → Prop}

theorem passes_refl (tokens : List Token) : Passes P tokens tokens :=
  ⟨[], rfl, by simp⟩

theorem Passes.trans {tokens middle rest : List Token} (h : Passes P tokens middle)
    (h' : Passes P middle rest) : Passes P tokens rest := by
  rcases h with ⟨front, rfl, hfront⟩
  rcases h' with ⟨inner, rfl, hinner⟩
  exact ⟨front ++ inner, by simp, List.forall_mem_append.2 ⟨hfront, hinner⟩⟩

/-- A token that does not satisfy the condition is not passed. -/
theorem Passes.length_le {before behind rest : List Token} (h : Passes P (before ++ behind) rest)
    (hbehind : ∀ token ∈ behind.head?, ¬ P token) : behind.length ≤ rest.length := by
  rcases h with ⟨front, hparts, hfront⟩
  rcases List.append_eq_append_iff.1 hparts with ⟨more, rfl, rfl⟩ | ⟨more, rfl, rfl⟩
  · cases more with
    | nil => simp
    | cons token more => exact absurd (hfront token (by simp)) (hbehind token rfl)
  · simp

theorem furthest_stays {tokens : List Token} {first second : Option Fault}
    (hfirst : ∀ fault ∈ first, Passes P tokens fault) (hsecond : ∀ fault ∈ second, Passes P tokens fault) :
    ∀ fault ∈ furthest first second, Passes P tokens fault := by
  intro fault hmem
  rcases mem_furthest hmem with hmem | hmem
  · exact hfirst fault hmem
  · exact hsecond fault hmem

theorem further_stays {tokens : List Token} {spare : Option Fault} {fault : Fault}
    (hspare : ∀ other ∈ spare, Passes P tokens other) (hfault : Passes P tokens fault) :
    Passes P tokens (further spare fault) := by
  rcases further_cases spare fault with hsame | hmem
  · rw [hsame]
    exact hfault
  · exact hspare _ hmem

theorem staysIn_pure (value : α) : (Rule.pure value).StaysIn P := fun tokens =>
  .taken (passes_refl tokens) nofun

theorem staysIn_take {value? : Token → Option α} (h : ∀ token value, value? token = some value → P token) :
    (Rule.take value?).StaysIn P := by
  intro tokens
  cases tokens with
  | nil => exact .failed (passes_refl _)
  | cons token rest =>
      rw [Rule.take]
      split
      · next value hvalue => exact .taken ⟨[token], rfl, by simpa using h token value hvalue⟩ nofun
      · exact .failed (passes_refl _)

theorem staysIn_token {accepts : Token → Bool} (h : ∀ token, accepts token = true → P token) :
    (Rule.token accepts).StaysIn P := by
  apply staysIn_take
  intro token value hvalue
  split at hvalue
  · next haccepts => exact h token haccepts
  · cases hvalue

theorem Rule.StaysIn.map {rule : Rule α} (h : rule.StaysIn P) (f : α → β) : (rule.map f).StaysIn P := by
  intro tokens
  have hrule := h tokens
  rw [Rule.map]
  cases hanswer : rule tokens with
  | failed fault =>
      rw [hanswer] at hrule
      cases hrule with
      | failed hfault => exact .failed hfault
  | taken value rest spare =>
      rw [hanswer] at hrule
      cases hrule with
      | taken hrest hspare => exact .taken hrest hspare

theorem Rule.StaysIn.andThen {first : Rule α} {second : Rule β} (h : first.StaysIn P)
    (h' : second.StaysIn P) : (first.andThen second).StaysIn P := by
  intro tokens
  have hfirst := h tokens
  rw [Rule.andThen]
  cases hanswer : first tokens with
  | failed fault =>
      rw [hanswer] at hfirst
      cases hfirst with
      | failed hfault => exact .failed hfault
  | taken value middle spare =>
      rw [hanswer] at hfirst
      cases hfirst with
      | taken hmiddle hspare =>
          have hsecond := h' middle
          simp only
          cases hother : second middle with
          | failed fault =>
              rw [hother] at hsecond
              cases hsecond with
              | failed hfault => exact .failed (further_stays hspare (hmiddle.trans hfault))
          | taken other rest more =>
              rw [hother] at hsecond
              cases hsecond with
              | taken hrest hmore =>
                  exact .taken (hmiddle.trans hrest)
                    (furthest_stays hspare fun fault hmem => hmiddle.trans (hmore fault hmem))

theorem Rule.StaysIn.orElse {first second : Rule α} (h : first.StaysIn P) (h' : second.StaysIn P) :
    (first.orElse second).StaysIn P := by
  intro tokens
  have hfirst := h tokens
  rw [Rule.orElse]
  cases hanswer : first tokens with
  | taken value rest spare =>
      rw [hanswer] at hfirst
      exact hfirst
  | failed fault =>
      rw [hanswer] at hfirst
      cases hfirst with
      | failed hfault =>
          have hkept : ∀ other ∈ some fault, Passes P tokens other := by
            rintro other ⟨⟩
            exact hfault
          have hsecond := h' tokens
          simp only
          cases hother : second tokens with
          | taken value rest spare =>
              rw [hother] at hsecond
              cases hsecond with
              | taken hrest hspare => exact .taken hrest (furthest_stays hkept hspare)
          | failed other =>
              rw [hother] at hsecond
              cases hsecond with
              | failed hlast => exact .failed (further_stays hkept hlast)

theorem Rule.StaysIn.optional {rule : Rule α} (h : rule.StaysIn P) : rule.optional.StaysIn P :=
  (h.map some).orElse (staysIn_pure none)

theorem Rule.StaysIn.below {rule : Rule α} (h : rule.StaysIn P) (size : Nat) :
    (Rule.below size rule).StaysIn P := by
  intro tokens
  rw [Rule.below]
  split
  · exact h tokens
  · exact .failed (passes_refl _)

/-- A rule stays where it stays as long as it stands for itself there. -/
theorem staysIn_recursive {body : Rule α → Rule α} (h : ∀ rule, rule.StaysIn P → (body rule).StaysIn P) :
    (Rule.recursive body).StaysIn P := by
  have hunroll : ∀ depth, (Rule.unroll body depth).StaysIn P := by
    intro depth
    induction depth with
    | zero => exact fun tokens => .failed (passes_refl tokens)
    | succ depth ih => exact fun tokens => h _ (ih.below tokens.length) tokens
  exact fun tokens => hunroll _ tokens

theorem Rule.StaysIn.many {rule : Rule α} (h : rule.StaysIn P) : rule.many.StaysIn P :=
  staysIn_recursive fun _ hothers => ((h.andThen hothers).map _).orElse (staysIn_pure [])

theorem Rule.StaysIn.separated {rule : Rule α} {separator : Rule β} (h : rule.StaysIn P)
    (hseparator : separator.StaysIn P) : (rule.separated separator).StaysIn P :=
  (h.andThen ((hseparator.andThen h).map Prod.snd).many).map _

end StaysIn

end PassageMarkup
