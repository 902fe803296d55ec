/-
Module: PassageMarkup.Proofs.PhraseRules
Layer: Proofs
Purpose: What the rules of a passage do on its phrases. In front of tokens that do not go on with it, a phrase
  that fits the grammar is taken by the first rule that can take it, and drawn as its sketch. This is said
  for all rules that can stand for those of a call and of a hook on the tokens at hand, since inside a
  phrase the rules stand for themselves on fewer tokens.
Imports: Grammar.Item, Proofs.ArgumentRules, Proofs.Separation
Main exports: segmentSpans, Phrase.sketch, sketchAll, Phrase.EndsAt, Standing, yields_phrase, loops_phrases,
  failed_link
-/
import PassageMarkup.Grammar.Item
import PassageMarkup.Proofs.ArgumentRules
import PassageMarkup.Proofs.Separation

namespace PassageMarkup

/-! ### Sketches of phrases -/

/-- The spans of the segments between the arrows of a link. -/
def segmentSpans (inside : List Token) : List Span :=
  (inside.splitOnP (·.kind == .linkArrow)).map fun segment => .bounds (segment.map Token.span)

/-- The sketch of a call, given that of its hook. -/
def CallText.sketch (call : CallText) (hook : Option (List Sketch)) : Sketch :=
  .call (nameOfHead call.head.text) ⟨call.head.start, call.closing.stop⟩ (Arguments.ofTokens call.body) hook

mutual

/-- The sketch of a phrase. A value that is no literal has none of its own; the grammar takes no such. -/
def Phrase.sketch (source : String) : Phrase → Sketch
  | .prose run => .text (.bounds (run.map Token.span))
  | .value token => token.hookLiteral?.elim (.text token.span) .literal
  | .link _ inside _ => .link (.ofSegments source (segmentSpans inside))
  | .hook _ children _ => .hook (sketchAll source children)
  | .call text => text.sketch none
  | .hooked text _ children _ => text.sketch (some (sketchAll source children))

/-- The sketches of phrases in order. -/
def sketchAll (source : String) : List Phrase → List Sketch
  | [] => []
  | phrase :: rest => phrase.sketch source :: sketchAll source rest

end

/-! ### Runs and segments -/

section Runs

variable {accepts : Token → Bool} {run more : List Token}

theorem failed_tokenRun (h : ∀ token ∈ more.head?, accepts token = false) :
    Grammar.tokenRun accepts more = .failed more :=
  failed_map (failed_map (failed_andThen_left (failed_token h) _) _) _

/-- A run of accepted tokens is taken as a whole. -/
theorem yields_tokenRun (hne : run ≠ []) (hrun : ∀ token ∈ run, accepts token = true)
    (hmore : ∀ token ∈ more.head?, accepts token = false) :
    (Grammar.tokenRun accepts).Yields (run ++ more) (.bounds (run.map Token.span)) more := by
  cases run with
  | nil => exact absurd rfl hne
  | cons token run =>
      rcases List.forall_mem_cons.1 hrun with ⟨htoken, hothers⟩
      exact ((yields_token htoken).many1 (loops_token hothers hmore)).yields.map _

end Runs

section Segments

variable {inside tail stuck : List Token}

/-- An arrow and a segment behind it. -/
def nextSegment : Rule Span :=
  ((Rule.kind .linkArrow).andThen Grammar.segment).map Prod.snd

theorem not_arrow_of_isLinkText {token : Token} (h : token.kind.isLinkText = true) :
    (token.kind == .linkArrow) = false := by
  apply beq_eq_false_iff_ne.2
  intro harrow
  rw [harrow] at h
  cases h

theorem not_isLinkText_of_arrow {arrow : Token} (h : arrow.kind = .linkArrow) (rest : List Token) :
    ∀ token ∈ (arrow :: rest).head?, token.kind.isLinkText = false := by
  rintro token ⟨⟩
  rw [h]
  rfl

theorem segmentSpans_run (hrun : ∀ token ∈ inside, token.kind.isLinkText = true) :
    segmentSpans inside = [.bounds (inside.map Token.span)] := by
  rw [segmentSpans, List.splitOnP_eq_singleton]
  · rfl
  · exact fun token hmem => by simp [not_arrow_of_isLinkText (hrun token hmem)]

theorem segmentSpans_append {run rest : List Token} {arrow : Token}
    (hrun : ∀ token ∈ run, token.kind.isLinkText = true) (harrow : arrow.kind = .linkArrow) :
    segmentSpans (run ++ arrow :: rest) = .bounds (run.map Token.span) :: segmentSpans rest := by
  rw [segmentSpans, List.splitOnP_append_cons_of_forall_mem]
  · rfl
  · exact fun token hmem => by simp [not_arrow_of_isLinkText (hrun token hmem)]
  · simp [harrow]

/-- Further segments are taken one after the other, up to where an arrow with a segment fails. -/
theorem loops_nextSegment (h : Derives .segments inside) {arrow : Token} (harrow : arrow.kind = .linkArrow)
    (htail : ∀ token ∈ tail.head?, token.kind.isLinkText = false)
    (hfailed : nextSegment tail = .failed stuck) (hbeyond : stuck.length ≤ tail.length) :
    Loops nextSegment stuck (arrow :: (inside ++ tail)) (segmentSpans inside) tail := by
  generalize hsymbol : Symbol.segments = symbol at h
  induction h generalizing arrow with
  | segmentsOne hsegment =>
      cases hsegment with
      | segment hne hrun =>
          have hitem := ((yields_kind harrow).andThen (yields_tokenRun hne hrun htail)).map Prod.snd
          rw [segmentSpans_run hrun]
          exact .step hitem (length_lt_behind ..) (.stop hfailed hbeyond)
  | @segmentsCons _ rest next hsegment hnext _ _ ih =>
      cases hsegment with
      | @segment run hne hrun =>
          have hmore := not_isLinkText_of_arrow hnext (rest ++ tail)
          have hitem := ((yields_kind harrow).andThen (yields_tokenRun hne hrun hmore)).map Prod.snd
          rw [segmentSpans_append hrun hnext, List.append_assoc]
          exact .step hitem (length_lt_behind ..) (ih hnext hsymbol)
  | _ => cases hsymbol

/-- Segments stall where an arrow with a segment fails behind them. -/
theorem stalls_segments (h : Derives .segments inside)
    (htail : ∀ token ∈ tail.head?, token.kind.isLinkText = false)
    (hfailed : nextSegment tail = .failed stuck) (hbeyond : stuck.length ≤ tail.length) :
    (Grammar.segment.separated (.kind .linkArrow)).Stalls (inside ++ tail) (segmentSpans inside) tail
      stuck := by
  cases h with
  | segmentsOne hsegment =>
      cases hsegment with
      | segment hne hrun =>
          have hstop := Loops.stop hfailed hbeyond
          rw [segmentSpans_run hrun]
          exact ((yields_tokenRun hne hrun htail).andThen_stalls hstop.stalls_many).map _
  | @segmentsCons _ rest next hsegment hnext hrest =>
      cases hsegment with
      | @segment run hne hrun =>
          have hmore := not_isLinkText_of_arrow hnext (rest ++ tail)
          have hothers := loops_nextSegment hrest hnext htail hfailed hbeyond
          rw [segmentSpans_append hrun hnext, List.append_assoc]
          exact ((yields_tokenRun hne hrun hmore).andThen_stalls hothers.stalls_many).map _

theorem failed_nextSegment (h : ∀ token ∈ tail.head?, token.kind ≠ .linkArrow) :
    nextSegment tail = .failed tail :=
  failed_map (failed_andThen_left (failed_kind h) _) _

/-- A link takes the segments between its brackets. -/
theorem yields_link (source : String) {opening closing : Token} (hopening : opening.kind = .linkOpen)
    (hinside : Derives .segments inside) (hclosing : closing.kind = .linkClose) (more : List Token) :
    (Grammar.link source).Yields (opening :: (inside ++ closing :: more))
      (.ofSegments source (segmentSpans inside)) more := by
  have hkind : ∀ token ∈ (closing :: more).head?, token.kind = .linkClose := by
    rintro token ⟨⟩
    exact hclosing
  have hsegments := stalls_segments hinside (fun token hmem => by rw [hkind token hmem]; rfl)
    (failed_nextSegment fun token hmem => by simp [hkind token hmem]) (Nat.le_refl _)
  exact (((yields_kind hopening).andThen hsegments.yields).andThen (yields_kind hclosing)).map _

/-- A link that breaks off fails there: at a token that can neither go on with it nor close it. -/
theorem failed_link (source : String) {opening : Token} (hopening : opening.kind = .linkOpen)
    (hinside : OpenSegments inside)
    (htext : ∀ token ∈ stuck.head?, token.kind.isLinkText = false)
    (hends : Derives .segments inside → ∀ token ∈ stuck.head?,
      token.kind ≠ .linkArrow ∧ token.kind ≠ .linkClose) :
    Grammar.link source (opening :: (inside ++ stuck)) = .failed stuck := by
  apply failed_map
  cases hinside with
  | start =>
      have hsegments := failed_map (failed_andThen_left (failed_tokenRun htext)
        (((Rule.kind .linkArrow).andThen Grammar.segment).map Prod.snd).many) fun (span, spans) => span :: spans
      exact failed_andThen_left ((yields_kind hopening).failed_andThen hsegments (Nat.le_refl _)) _
  | segments h =>
      have hends := hends h
      have hsegments := stalls_segments h htext (failed_nextSegment fun token hmem => (hends token hmem).1)
        (Nat.le_refl _)
      exact ((yields_kind hopening).andThen hsegments.yields).failed_andThen
        (failed_kind fun token hmem => (hends token hmem).2) (Nat.le_refl _)
  | @arrow tokens arrow h harrow =>
      -- the last arrow is given back, but what was missing behind it counts
      have htail := not_isLinkText_of_arrow harrow stuck
      have hfailed : nextSegment (arrow :: stuck) = .failed stuck :=
        failed_map ((yields_kind harrow).failed_andThen (failed_tokenRun htext) (Nat.le_refl _)) _
      have hsegments := stalls_segments h htail hfailed (Nat.le_succ _)
      have hclose : Rule.kind .linkClose (arrow :: stuck) = .failed (arrow :: stuck) := by
        apply failed_kind
        rintro token ⟨⟩
        simp [harrow]
      rw [List.append_assoc]
      exact ((yields_kind hopening).andThen_stalls hsegments).failed_andThen hclose
        (.inl (Nat.lt_succ_self _))

end Segments

/-! ### Rules that stand for those of the grammar -/

/-- The rule of running text on a level. -/
def Level.running : Level → Rule Sketch
  | .passage => Grammar.topText
  | .hook => Grammar.hookText

/-- Rules of a call and of a hook that can stand for the grammar's on up to so many tokens. -/
structure Standing (source : String) (size : Nat) (call : Rule Sketch) (hook : Rule (List Sketch)) :
    Prop where
  call_agrees : call.Agrees size (Grammar.call source)
  hook_agrees : hook.Agrees size (Grammar.hook source call)

theorem standing_grammar (source : String) (size : Nat) :
    Standing source size (Grammar.call source) (Grammar.hook source (Grammar.call source)) :=
  ⟨fun _ _ => rfl, fun _ _ => rfl⟩

/-- Inside a hook its rule stands for itself on fewer tokens. -/
theorem Standing.inHook {source : String} {size : Nat} {call : Rule Sketch} {hook : Rule (List Sketch)}
    (h : Standing source size call hook) {opening : Token} {inner : List Token}
    (hsize : (opening :: inner).length ≤ size) :
    Standing source inner.length call
      (Rule.below (opening :: inner).length (Grammar.hook source call)) where
  call_agrees tokens htokens := h.call_agrees tokens (by rw [List.length_cons] at hsize; omega)
  hook_agrees := agrees_below (Nat.lt_succ_self _)

/-- Behind the head of a call its rule stands for itself on fewer tokens. -/
theorem standing_inCall (source : String) (head : Token) {inner : List Token} {size : Nat}
    (h : size ≤ inner.length) :
    Standing source size (Rule.below (head :: inner).length (Grammar.call source))
      (Grammar.hook source (Rule.below (head :: inner).length (Grammar.call source))) where
  call_agrees := agrees_below (Nat.lt_succ_of_le h)
  hook_agrees _ _ := rfl

section Standing

variable {source : String} {size : Nat} {call : Rule Sketch} {hook : Rule (List Sketch)}
  {tokens : List Token}

theorem hook_eq (source : String) (call : Rule Sketch) (tokens : List Token) :
    Grammar.hook source call tokens =
      (((Rule.kind .hookOpen).andThen (Grammar.anyOf source call
        (Rule.below tokens.length (Grammar.hook source call)) Grammar.hookText).many).andThen
          (.kind .hookClose)).map (fun ((_, children), _) => children) tokens :=
  Rule.recursive_eq _ tokens

theorem call_eq (source : String) (tokens : List Token) :
    Grammar.call source tokens =
      (((Rule.kind .callHead).andThen Grammar.arguments).andThen
        (Grammar.attachedHook source (Rule.below tokens.length (Grammar.call source)))).map
          (fun ((head, arguments, closing), hook) =>
            .call (nameOfHead head.text) ⟨head.start, closing.stop⟩ arguments hook) tokens :=
  Rule.recursive_eq _ tokens

theorem Standing.failed_call (h : Standing source size call hook) (hsize : tokens.length ≤ size)
    (hhead : ∀ token ∈ tokens.head?, token.kind ≠ .callHead) : call tokens = .failed tokens := by
  rw [h.call_agrees tokens hsize, call_eq]
  exact failed_map (failed_andThen_left (failed_andThen_left (failed_kind hhead) _) _) _

theorem failed_grammar_hook (source : String) (call : Rule Sketch)
    (hhead : ∀ token ∈ tokens.head?, token.kind ≠ .hookOpen) :
    Grammar.hook source call tokens = .failed tokens := by
  rw [hook_eq]
  exact failed_map (failed_andThen_left (failed_andThen_left (failed_kind hhead) _) _) _

theorem Standing.failed_hook (h : Standing source size call hook) (hsize : tokens.length ≤ size)
    (hhead : ∀ token ∈ tokens.head?, token.kind ≠ .hookOpen) : hook tokens = .failed tokens :=
  (h.hook_agrees tokens hsize).trans (failed_grammar_hook source call hhead)

theorem failed_link_start (source : String) (hhead : ∀ token ∈ tokens.head?, token.kind ≠ .linkOpen) :
    Grammar.link source tokens = .failed tokens :=
  failed_map (failed_andThen_left (failed_andThen_left (failed_kind hhead) _) _) _

/-- Of the rules that start with a certain kind, those for another kind fail at the first token. -/
theorem Standing.failed_others (h : Standing source size call hook) (hsize : tokens.length ≤ size)
    {kind : Kind} (hkind : ∀ token ∈ tokens.head?, token.kind = kind) :
    (kind ≠ .callHead → call tokens = .failed tokens) ∧
      (kind ≠ .linkOpen → (Grammar.link source).map Sketch.link tokens = .failed tokens) ∧
      (kind ≠ .hookOpen → hook.map Sketch.hook tokens = .failed tokens) := by
  have hne : ∀ {other : Kind}, kind ≠ other → ∀ token ∈ tokens.head?, token.kind ≠ other :=
    fun hother token hmem hsame => hother ((hkind token hmem).symm.trans hsame)
  refine ⟨?_, ?_, ?_⟩
  · exact fun hother => h.failed_call hsize (hne hother)
  · exact fun hother => failed_map (failed_link_start source (hne hother)) _
  · exact fun hother => failed_map (h.failed_hook hsize (hne hother)) _

theorem failed_running (level : Level)
    (hhead : ∀ token ∈ tokens.head?, Level.passage.isRun token.kind = false) :
    level.running tokens = .failed tokens := by
  have hkinds : ∀ token ∈ tokens.head?, token.isTopLevelText = false ∧ token.kind.isProse = false ∧
      token.hookLiteral? = none := by
    intro token hmem
    have hnot := hhead token hmem
    cases hkind : token.kind <;> rw [hkind] at hnot <;> first
      | exact absurd hnot (by decide)
      | simp [Token.isTopLevelText, Token.hookLiteral?, hkind, Kind.isProse, Kind.isBracket]
  cases level with
  | passage => exact failed_map (failed_tokenRun fun token hmem => (hkinds token hmem).1) _
  | hook =>
      exact failed_orElse (failed_map (failed_take fun token hmem => (hkinds token hmem).2.2) _)
        (failed_map (failed_tokenRun fun token hmem => (hkinds token hmem).2.1) _) (Nat.le_refl _)

/-- Tokens at which no construct starts are left to the rule of running text. -/
theorem Standing.yields_running (h : Standing source size call hook) {running : Rule Sketch}
    {sketch : Sketch} {rest : List Token} (hsize : tokens.length ≤ size)
    (hhead : ∀ token ∈ tokens.head?, Level.passage.isRun token.kind = true)
    (hrunning : running.Yields tokens sketch rest) :
    (Grammar.anyOf source call hook running).Yields tokens sketch rest := by
  have hne : ∀ {kind : Kind}, Level.passage.isRun kind = false → ∀ token ∈ tokens.head?, token.kind ≠ kind := by
    rintro kind hkind token hmem rfl
    rw [hhead token hmem] at hkind
    cases hkind
  have hhook := failed_map (h.failed_hook hsize (hne rfl)) Sketch.hook
  have hlink := failed_map (failed_link_start source (hne rfl)) Sketch.link
  have hcall := h.failed_call hsize (hne rfl)
  exact ((hrunning.orElse_right hhook hrunning.shrinks).orElse_right hlink hrunning.shrinks).orElse_right
    hcall hrunning.shrinks

theorem closes_of_hookClose {closing : Token} (h : closing.kind = .hookClose) (more : List Token) :
    ∀ token ∈ (closing :: more).head?, token.kind = .linkClose ∨ token.kind = .hookClose := by
  rintro token ⟨⟩
  exact .inr h

/-- At a token that closes something, and at the end, nothing can stand. -/
theorem Standing.failed_closing (h : Standing source size call hook) (level : Level)
    (hsize : tokens.length ≤ size)
    (hhead : ∀ token ∈ tokens.head?, token.kind = .linkClose ∨ token.kind = .hookClose) :
    Grammar.anyOf source call hook level.running tokens = .failed tokens := by
  have hne : ∀ {kind : Kind}, kind ≠ .linkClose → kind ≠ .hookClose →
      ∀ token ∈ tokens.head?, token.kind ≠ kind := by
    rintro kind hlink hhook token hmem rfl
    exact (hhead token hmem).elim hlink hhook
  have hrunning : level.running tokens = .failed tokens := by
    apply failed_running
    intro token hmem
    rcases hhead token hmem with hkind | hkind <;> rw [hkind] <;> rfl
  exact failed_orElse (h.failed_call hsize (hne nofun nofun))
    (failed_orElse (failed_map (failed_link_start source (hne nofun nofun)) _)
      (failed_orElse (failed_map (h.failed_hook hsize (hne nofun nofun)) _) hrunning (Nat.le_refl _))
      (Nat.le_refl _)) (Nat.le_refl _)

/-! ### Phrases are taken -/

/-- Some tokens do not go on with a phrase in front of them. -/
def Phrase.EndsAt (level : Level) : Phrase → List Token → Prop
  | .prose _, more => ∀ token ∈ more.head?, level.isRun token.kind = false
  | .call _, more => ∀ token ∈ more.head?, token.kind ≠ .hookOpen
  | _, _ => True

theorem isRun_passage_of_isRun {level : Level} {kind : Kind} (h : level.isRun kind = true) :
    Level.passage.isRun kind = true := by
  cases level <;> cases kind <;> first | rfl | cases h

/-- A bracket other than an opening one of a hook, and the head of a call, go on with no phrase. -/
theorem Phrase.endsAt_of {level : Level} (phrase : Phrase) {more : List Token}
    (h : ∀ token ∈ more.head?, Level.passage.isRun token.kind = false ∧ token.kind ≠ .hookOpen) :
    phrase.EndsAt level more := by
  cases phrase with
  | prose run =>
      intro token hmem
      rw [Bool.eq_false_iff]
      intro hrun
      have hnot := (h token hmem).1
      rw [isRun_passage_of_isRun hrun] at hnot
      cases hnot
  | call text => exact fun token hmem => (h token hmem).2
  | _ => trivial

/-- A phrase that does not belong to the one in front of it does not go on with it. -/
theorem endsAt_next {level : Level} {phrase next : Phrase} (hfits : next.Fits level)
    (hjoins : phrase.joins next = false) (more : List Token) : phrase.EndsAt level (next.yield ++ more) := by
  cases next with
  | prose run =>
      rcases hfits with ⟨hne, hrun⟩
      rcases List.exists_cons_of_ne_nil hne with ⟨token, run, rfl⟩
      cases phrase with
      | prose other => cases hjoins
      | call text =>
          rintro first ⟨⟩ hkind
          have htoken := hrun token List.mem_cons_self
          rw [hkind] at htoken
          cases level <;> cases htoken
      | _ => trivial
  | value token =>
      rcases hfits with ⟨rfl, hkind⟩
      cases phrase with
      | prose other =>
          rintro first ⟨⟩
          rcases hkind with hkind | hkind <;> rw [hkind] <;> rfl
      | call text =>
          rintro first ⟨⟩
          rcases hkind with hkind | hkind <;> simp [hkind]
      | _ => trivial
  | hook opening children closing =>
      rcases hfits with ⟨hopening, _⟩
      cases phrase with
      | prose other =>
          rintro first ⟨⟩
          rw [hopening]
          cases level <;> rfl
      | call text => cases hjoins
      | _ => trivial
  | link opening inside closing =>
      apply phrase.endsAt_of
      rintro first ⟨⟩
      rw [hfits.1]
      exact ⟨rfl, nofun⟩
  | call text =>
      apply phrase.endsAt_of
      rintro first ⟨⟩
      rw [hfits.1]
      exact ⟨rfl, nofun⟩
  | hooked text opening children closing =>
      apply phrase.endsAt_of
      rintro first ⟨⟩
      rw [hfits.1.1]
      exact ⟨rfl, nofun⟩

/-- A closing bracket goes on with no phrase. -/
theorem Phrase.endsAt_closing {level : Level} (phrase : Phrase) {more : List Token}
    (h : ∀ token ∈ more.head?, token.kind = .linkClose ∨ token.kind = .hookClose) :
    phrase.EndsAt level more := by
  apply phrase.endsAt_of
  intro token hmem
  rcases h token hmem with hkind | hkind <;> rw [hkind] <;> exact ⟨rfl, nofun⟩

/-- No phrase that fits is without tokens. -/
theorem yield_ne_nil {level : Level} {phrase : Phrase} (h : phrase.Fits level) : phrase.yield ≠ [] := by
  cases phrase with
  | prose run => exact h.1
  | _ => simp [Phrase.yield, CallText.yield]

/-- The rule of running text takes a run of the level. -/
theorem yields_running_prose {level : Level} {run more : List Token} (hne : run ≠ [])
    (hrun : ∀ token ∈ run, level.isRun token.kind = true)
    (hmore : ∀ token ∈ more.head?, level.isRun token.kind = false) :
    level.running.Yields (run ++ more) (.text (.bounds (run.map Token.span))) more := by
  have htext : ∀ {accepts : Token → Bool}, (∀ token, accepts token = level.isRun token.kind) →
      (Grammar.text accepts).Yields (run ++ more) (.text (.bounds (run.map Token.span))) more := by
    intro accepts haccepts
    exact (yields_tokenRun hne (fun token hmem => (haccepts token).trans (hrun token hmem))
      (fun token hmem => (haccepts token).trans (hmore token hmem))).map Sketch.text
  cases level with
  | passage =>
      apply htext
      intro token
      rw [Token.isTopLevelText, Level.isRun]
      cases token.kind <;> rfl
  | hook =>
      have hliteral : ∀ token ∈ (run ++ more).head?, token.hookLiteral? = none := by
        intro token hmem
        rw [List.head?_append_of_ne_nil _ hne] at hmem
        have hprose := hrun token (List.mem_of_mem_head? hmem)
        apply if_neg
        rintro (hkind | hkind) <;> rw [hkind] at hprose <;> cases hprose
      have hrunning := htext (fun _ => rfl)
      exact hrunning.orElse_right (failed_map (failed_take hliteral) _) hrunning.shrinks

/-- Strings and variables are literals by themselves. -/
theorem exists_literal {token : Token} (h : token.kind = .string ∨ token.kind = .variable) :
    ∃ value, token.literal? = some value := by
  rcases h with h | h
  · exact ⟨_, by simp only [Token.literal?, h]; rfl⟩
  · exact ⟨_, by simp only [Token.literal?, h]; rfl⟩

theorem hookLiteral?_eq {token : Token} (h : token.kind = .string ∨ token.kind = .variable) :
    token.hookLiteral? = token.literal? :=
  if_pos h

/-- The rule of running text in a hook takes a string or a variable by itself. -/
theorem yields_running_value {token : Token} (hkind : token.kind = .string ∨ token.kind = .variable)
    (more : List Token) :
    Level.hook.running.Yields (token :: more) ((Phrase.value token).sketch source) more := by
  rcases exists_literal hkind with ⟨value, hvalue⟩
  rw [← hookLiteral?_eq hkind] at hvalue
  rw [Phrase.sketch, hvalue]
  exact ((yields_take hvalue).map Sketch.literal).orElse _

/-- A hook is taken with what stands in it, if rules that stand for those of a call and of a hook take that
up to where nothing can stand. -/
theorem Standing.yields_hook (h : Standing source size call hook) {opening closing : Token}
    {inner more : List Token} {sketches : List Sketch}
    (hsize : (opening :: (inner ++ closing :: more)).length ≤ size) (hopening : opening.kind = .hookOpen)
    (hclosing : closing.kind = .hookClose)
    (hloops : ∀ {call : Rule Sketch} {hook : Rule (List Sketch)},
      Standing source (inner ++ closing :: more).length call hook →
      Grammar.anyOf source call hook Level.hook.running (closing :: more) = .failed (closing :: more) →
      Loops (Grammar.anyOf source call hook Level.hook.running) (closing :: more) (inner ++ closing :: more)
        sketches (closing :: more)) : hook.Yields (opening :: (inner ++ closing :: more)) sketches more := by
  have hinner := h.inHook hsize
  have hstop := hinner.failed_closing .hook (by simp) (closes_of_hookClose hclosing more)
  have hchildren := (yields_kind hopening).andThen (hloops hinner hstop).stalls_many.yields
  exact ((hchildren.andThen (yields_kind hclosing)).map _).of_eq
    ((h.hook_agrees _ hsize).trans (hook_eq source call _))

theorem yield_append (text : CallText) (more : List Token) :
    text.yield ++ more = text.head :: (text.body ++ text.closing :: more) := by
  simp [CallText.yield]

/-- A call is taken with its hook, if there is one. -/
theorem yields_call (source : String) {text : CallText} (hfits : text.Fits) {more rest : List Token}
    {attached : Option (List Sketch)}
    (h : (Grammar.attachedHook source (Rule.below (text.yield ++ more).length
      (Grammar.call source))).Yields more attached rest) :
    (Grammar.call source).Yields (text.yield ++ more) (text.sketch attached) rest := by
  rcases hfits with ⟨hhead, hbody, hclosing⟩
  rw [yield_append] at h ⊢
  have hcall := (yields_kind hhead).andThen (yields_arguments hbody hclosing more)
  exact ((hcall.andThen h).map _).of_eq (call_eq source _)

/-- Where no hook follows a call, it has none. -/
theorem yields_noHook (source : String) (call : Rule Sketch) {more : List Token}
    (hmore : ∀ token ∈ more.head?, token.kind ≠ .hookOpen) :
    (Grammar.attachedHook source call).Yields more none more := by
  have hhook := failed_map (failed_grammar_hook source call hmore) some
  cases more with
  | nil =>
      have hrewind : (Rule.kind .hookOpen).unlike.rewind [] = .failed [] := failed_unlike_rewind (absurd rfl)
      have hunlike := failed_map hrewind fun _ => (none : Option (List Sketch))
      have hend : (Rule.atEnd.map fun _ => (none : Option (List Sketch))).Yields [] none [] :=
        ⟨⟨none, rfl, nofun⟩, Nat.le_refl _⟩
      exact (hend.orElse_right hunlike (Nat.le_refl _)).orElse_right hhook (Nat.le_refl _)
  | cons token rest =>
      have hunlike := (yields_unlike_rewind (failed_kind hmore)).map fun _ => (none : Option (List Sketch))
      exact (hunlike.orElse _).orElse_right hhook (Nat.le_refl _)

end Standing

section Taken

variable {source : String}

mutual

/-- A phrase that fits is taken as its sketch, in front of tokens that do not go on with it. -/
theorem yields_phrase {level : Level} : ∀ {phrase : Phrase} {more : List Token} {size : Nat}
    {call : Rule Sketch} {hook : Rule (List Sketch)}, phrase.Fits level → phrase.ApartInside →
      phrase.EndsAt level more → Standing source size call hook → (phrase.yield ++ more).length ≤ size →
      (Grammar.anyOf source call hook level.running).Yields (phrase.yield ++ more) (phrase.sketch source)
        more
  | .prose run, more, size, call, hook, ⟨hne, hrun⟩, _, hends, hstanding, hsize => by
      rcases List.exists_cons_of_ne_nil hne with ⟨first, later, rfl⟩
      have hfirst := hrun first List.mem_cons_self
      have hhead : ∀ token ∈ (first :: later ++ more).head?, Level.passage.isRun token.kind = true := by
        rintro token ⟨⟩
        exact isRun_passage_of_isRun hfirst
      apply hstanding.yields_running hsize hhead
      exact yields_running_prose hne hrun hends
  | .value token, more, size, call, hook, ⟨hlevel, hkind⟩, _, _, hstanding, hsize => by
      subst hlevel
      have hhead : ∀ other ∈ (token :: more).head?, Level.passage.isRun other.kind = true := by
        rintro other ⟨⟩
        rcases hkind with hkind | hkind <;> rw [hkind] <;> rfl
      apply hstanding.yields_running hsize hhead
      exact yields_running_value hkind more
  | .link opening inside closing, more, size, call, hook, ⟨hopening, hinside, hclosing⟩, _, _, hstanding,
      hsize => by
      have htokens : (Phrase.link opening inside closing).yield ++ more =
          opening :: (inside ++ closing :: more) := by simp [Phrase.yield]
      have hcall : call ((Phrase.link opening inside closing).yield ++ more) = .failed _ :=
        hstanding.failed_call hsize (by rintro token ⟨⟩; simp [hopening])
      rw [htokens] at hcall ⊢
      have hlink := (yields_link source hopening hinside hclosing more).map Sketch.link
      exact (hlink.orElse _).orElse_right hcall hlink.shrinks
  | .hook opening children closing, more, size, call, hook, ⟨hopening, hchildren, hclosing⟩, hapart, _,
      hstanding, hsize => by
      have htokens : (Phrase.hook opening children closing).yield ++ more =
          opening :: (yieldAll children ++ closing :: more) := by simp [Phrase.yield]
      rw [htokens] at hsize ⊢
      have hkind : ∀ token ∈ (opening :: (yieldAll children ++ closing :: more)).head?,
          token.kind = .hookOpen := by
        rintro token ⟨⟩
        exact hopening
      have hends : ∀ last ∈ children.getLast?, last.EndsAt .hook (closing :: more) :=
        fun last _ => last.endsAt_closing (closes_of_hookClose hclosing more)
      have hhook := hstanding.yields_hook hsize hopening hclosing fun hinner hstop =>
        loops_phrases hchildren hapart hends hinner (Nat.le_refl _) hstop (Nat.le_refl _)
      rcases hstanding.failed_others hsize hkind with ⟨hcall, hlink, _⟩
      have hothers := (hhook.map Sketch.hook).orElse level.running
      exact (hothers.orElse_right (hlink (by decide)) hhook.shrinks).orElse_right (hcall (by decide))
        hhook.shrinks
  | .call text, more, size, call, hook, hfits, _, hends, hstanding, hsize => by
      have hcall := yields_call source hfits (yields_noHook source _ hends)
      exact (hcall.of_eq (hstanding.call_agrees _ hsize)).orElse _
  | .hooked text opening children closing, more, size, call, hook,
      ⟨hfits, hopening, hchildren, hclosing⟩, hapart, _, hstanding, hsize => by
      have htokens : (Phrase.hooked text opening children closing).yield ++ more =
          text.yield ++ opening :: (yieldAll children ++ closing :: more) := by simp [Phrase.yield]
      rw [htokens] at hsize ⊢
      have hends : ∀ last ∈ children.getLast?, last.EndsAt .hook (closing :: more) :=
        fun last _ => last.endsAt_closing (closes_of_hookClose hclosing more)
      -- in the hook of the call the rule of the call stands for itself already
      have hstands : Standing source (opening :: (yieldAll children ++ closing :: more)).length
          (Rule.below (text.yield ++ opening :: (yieldAll children ++ closing :: more)).length
            (Grammar.call source)) _ :=
        yield_append text _ ▸ standing_inCall source text.head (by simp; omega)
      have hhook := hstands.yields_hook (Nat.le_refl _) hopening hclosing fun hinner hstop =>
        loops_phrases hchildren hapart hends hinner (Nat.le_refl _) hstop (Nat.le_refl _)
      have hcall := yields_call source hfits ((hhook.map some).orElse _)
      exact (hcall.of_eq (hstanding.call_agrees _ hsize)).orElse _

/-- Phrases that fit and are apart are taken one after the other, up to where nothing more can be. -/
theorem loops_phrases {level : Level} : ∀ {phrases : List Phrase} {tail stuck : List Token} {size : Nat}
    {call : Rule Sketch} {hook : Rule (List Sketch)}, FitsAll level phrases → ApartAll phrases →
      (∀ last ∈ phrases.getLast?, last.EndsAt level tail) → Standing source size call hook →
      (yieldAll phrases ++ tail).length ≤ size →
      Grammar.anyOf source call hook level.running tail = .failed stuck → stuck.length ≤ tail.length →
      Loops (Grammar.anyOf source call hook level.running) stuck (yieldAll phrases ++ tail)
        (sketchAll source phrases) tail
  | [], tail, stuck, size, call, hook, _, _, _, _, _, hfailed, hbeyond => .stop hfailed hbeyond
  | phrase :: rest, tail, stuck, size, call, hook, ⟨hphrase, hrest⟩, hapart, hends, hstanding, hsize,
      hfailed, hbeyond => by
      rcases hapart with ⟨hinside, hnext, hothers⟩
      rw [yieldAll, List.append_assoc] at hsize ⊢
      have hshorter : (yieldAll rest ++ tail).length < (phrase.yield ++ (yieldAll rest ++ tail)).length := by
        have hpos := List.length_pos_iff.2 (yield_ne_nil hphrase)
        simp only [List.length_append]
        omega
      have hphraseEnds : phrase.EndsAt level (yieldAll rest ++ tail) := by
        cases rest with
        | nil => exact hends phrase rfl
        | cons next rest =>
            rw [yieldAll, List.append_assoc]
            exact endsAt_next hrest.1 (hnext next rfl) _
      have hlast : ∀ last ∈ rest.getLast?, last.EndsAt level tail := by
        intro last hmem
        apply hends last
        cases rest with
        | nil => cases hmem
        | cons next rest => rwa [List.getLast?_cons_cons]
      have hitem := yields_phrase hphrase hinside hphraseEnds hstanding hsize
      have hloops := loops_phrases hrest hothers hlast hstanding (Nat.le_trans (Nat.le_of_lt hshorter) hsize)
        hfailed hbeyond
      exact .step hitem hshorter hloops

end

end Taken

end PassageMarkup
