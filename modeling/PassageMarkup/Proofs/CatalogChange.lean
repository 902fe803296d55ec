/-
Module: PassageMarkup.Proofs.CatalogChange
Layer: Proofs
Purpose: What another catalog changes about a passage. Reading phrases asks no catalog, so the errors of
  the grammar are the same under all of them. Making nodes asks it once for each call, about that call's
  name alone: catalogs that agree on the names of the calls give the same answer, and where two catalogs
  both accept a passage, their trees have the same nodes in the same places, apart from how each call is
  shown.
Imports: Proofs.ShapeErrors
Main exports: CallForm, Recast, nodesOf_recast, parse_recast, callNames, ParseError.isGrammatical,
  Program.skeleton, parse_catalogs_agree
-/
import PassageMarkup.Proofs.ShapeErrors

namespace PassageMarkup

open Text

/-! ### Calls without their hooks -/

/-- A call in a tree without its hook: known, or kept as text. -/
inductive CallForm where
  | known (call : Call)
  | unknown (name raw : String)

/-- The name that is called. -/
def CallForm.name : CallForm → String
  | .known call => call.name
  | .unknown name _ => name

/-- The node of a call with its hook. -/
def CallForm.node : CallForm → Option (List Node) → Node
  | .known call, hook => .call call hook
  | .unknown name raw, hook => .unknownCall name raw hook

/-- The form that a call takes once it has been looked up. -/
def CallText.form (source : String) (call : CallText) : Option Pattern → CallForm
  | some pattern =>
      let arguments := Arguments.ofTokens call.body
      .known ⟨call.name, arguments.keyword?, arguments.expressions, pattern⟩
  | none => .unknown call.name (call.raw source)

theorem node_form (source : String) (call : CallText) (pattern : Option Pattern)
    (hook : Option (List Node)) :
    (call.form source pattern).node hook = call.node source pattern hook := by
  cases pattern <;> rfl

theorem name_form (source : String) (call : CallText) (pattern : Option Pattern) :
    (call.form source pattern).name = call.name := by
  cases pattern <;> rfl

/-- Two lists of nodes that differ in the form of their calls only: the forms are related, and all else
is equal at every level. -/
inductive Recast (related : CallForm → CallForm → Prop) : List Node → List Node → Prop where
  | nil : Recast related [] []
  | text {content : String} {rest others : List Node} (hrest : Recast related rest others) :
      Recast related (.text content :: rest) (.text content :: others)
  | literal {value : Literal} {rest others : List Node} (hrest : Recast related rest others) :
      Recast related (.literal value :: rest) (.literal value :: others)
  | link {sides : Link} {rest others : List Node} (hrest : Recast related rest others) :
      Recast related (.link sides :: rest) (.link sides :: others)
  | hook {children inner rest others : List Node} (hchildren : Recast related children inner)
      (hrest : Recast related rest others) :
      Recast related (.hook children :: rest) (.hook inner :: others)
  | call {first second : CallForm} {rest others : List Node} (hform : related first second)
      (hrest : Recast related rest others) :
      Recast related (first.node none :: rest) (second.node none :: others)
  | hooked {first second : CallForm} {children inner rest others : List Node}
      (hform : related first second) (hchildren : Recast related children inner)
      (hrest : Recast related rest others) :
      Recast related (first.node (some children) :: rest) (second.node (some inner) :: others)

/-! ### Making nodes under two catalogs -/

section TwoCatalogs

variable {source : String} {first second : Catalog}

mutual

/-- Catalogs that check the calls of a phrase alike make the same nodes of it. -/
theorem nodes_congr : ∀ {phrase : Phrase},
    (∀ call ∈ phrase.calls, call.check source first = call.check source second) →
      phrase.nodes source first = phrase.nodes source second
  | .prose _, _ | .value _, _ | .link _ _ _, _ => rfl
  | .hook _ children _, h => by
      rw [Phrase.nodes, Phrase.nodes, nodesOf_congr h]
  | .call text, h => by
      rw [Phrase.nodes, Phrase.nodes, h text List.mem_cons_self]
  | .hooked text _ children _, h => by
      rcases List.forall_mem_cons.1 h with ⟨htext, hchildren⟩
      rw [Phrase.nodes, Phrase.nodes, htext, nodesOf_congr hchildren]

theorem nodesOf_congr : ∀ {phrases : List Phrase},
    (∀ call ∈ callsOf phrases, call.check source first = call.check source second) →
      nodesOf source first phrases = nodesOf source second phrases
  | [], _ => rfl
  | phrase :: rest, h => by
      rcases List.forall_mem_append.1 h with ⟨hphrase, hrest⟩
      rw [nodesOf, nodesOf, nodes_congr hphrase, nodesOf_congr hrest]

end

/-- A call that one catalog accepts is accepted by another one, in a related form. -/
def CallText.Recasts (source : String) (first second : Catalog)
    (related : CallForm → CallForm → Prop) (call : CallText) : Prop :=
  ∀ pattern, call.check source first = .ok pattern → ∃ other,
    call.check source second = .ok other ∧ related (call.form source pattern) (call.form source other)

variable {related : CallForm → CallForm → Prop}

mutual

/-- Where the calls of a phrase are recast, so are its nodes, in front of any others that are. -/
theorem nodes_recast : ∀ {phrase : Phrase} {nodes : List Node},
    (∀ call ∈ phrase.calls, call.Recasts source first second related) →
      phrase.nodes source first = .ok nodes → ∃ others, phrase.nodes source second = .ok others ∧
        ∀ {behind further}, Recast related behind further →
          Recast related (nodes ++ behind) (others ++ further)
  | .prose run, nodes, _, hnodes => by
      cases hnodes
      refine ⟨_, rfl, ?_⟩
      intro behind further hbehind
      cases hblank : allBlank (spanText source run) with
      | true => simpa only [proseNodes, hblank, if_true, List.nil_append] using hbehind
      | false => simpa only [proseNodes, hblank, Bool.false_eq_true, if_false] using .text hbehind
  | .value token, nodes, _, hnodes => by
      cases hnodes
      refine ⟨_, rfl, ?_⟩
      intro behind further hbehind
      cases token.literal? with
      | none => exact hbehind
      | some value => exact .literal hbehind
  | .link _ inside _, nodes, _, hnodes => by
      cases hnodes
      exact ⟨_, rfl, fun hbehind => .link hbehind⟩
  | .hook _ children _, nodes, h, hnodes => by
      rcases except_bind_eq_ok.1 hnodes with ⟨inner, hinner, hanswer⟩
      cases hanswer
      rcases nodesOf_recast h hinner with ⟨others, hothers, hrecast⟩
      exact ⟨_, except_bind_eq_ok.2 ⟨others, hothers, rfl⟩, fun hbehind => .hook hrecast hbehind⟩
  | .call text, nodes, h, hnodes => by
      rcases except_bind_eq_ok.1 hnodes with ⟨pattern, hcheck, hanswer⟩
      cases hanswer
      rcases h text List.mem_cons_self pattern hcheck with ⟨other, hother, hform⟩
      refine ⟨_, except_bind_eq_ok.2 ⟨other, hother, rfl⟩, ?_⟩
      intro behind further hbehind
      rw [← node_form, ← node_form]
      exact .call hform hbehind
  | .hooked text _ children _, nodes, h, hnodes => by
      rcases List.forall_mem_cons.1 h with ⟨htext, hchildren⟩
      rcases except_bind_eq_ok.1 hnodes with ⟨pattern, hcheck, hhooked⟩
      rcases except_bind_eq_ok.1 hhooked with ⟨inner, hinner, hanswer⟩
      cases hanswer
      rcases htext pattern hcheck with ⟨other, hother, hform⟩
      rcases nodesOf_recast hchildren hinner with ⟨others, hothers, hrecast⟩
      refine ⟨_, except_bind_eq_ok.2
        ⟨other, hother, except_bind_eq_ok.2 ⟨others, hothers, rfl⟩⟩, ?_⟩
      intro behind further hbehind
      rw [← node_form, ← node_form]
      exact .hooked hform hrecast hbehind

/-- Where the calls of phrases are recast, so are their nodes. -/
theorem nodesOf_recast : ∀ {phrases : List Phrase} {nodes : List Node},
    (∀ call ∈ callsOf phrases, call.Recasts source first second related) →
      nodesOf source first phrases = .ok nodes →
        ∃ others, nodesOf source second phrases = .ok others ∧ Recast related nodes others
  | [], nodes, _, hnodes => by
      cases hnodes
      exact ⟨[], rfl, .nil⟩
  | phrase :: rest, nodes, h, hnodes => by
      rcases List.forall_mem_append.1 h with ⟨hphrase, hrest⟩
      rcases except_bind_eq_ok.1 hnodes with ⟨front, hfront, hsecond⟩
      rcases except_bind_eq_ok.1 hsecond with ⟨back, hback, hanswer⟩
      cases hanswer
      rcases nodes_recast hphrase hfront with ⟨others, hothers, hjoin⟩
      rcases nodesOf_recast hrest hback with ⟨further, hfurther, hrecast⟩
      exact ⟨_, except_bind_eq_ok.2 ⟨others, hothers, except_bind_eq_ok.2 ⟨further, hfurther, rfl⟩⟩,
        hjoin hrecast⟩

end

/-- Where the calls of an accepted passage are recast by another catalog, the passage is accepted under
that catalog too, and its tree is recast. -/
theorem parse_recast {program : Program} (hparse : parse first source = .ok program)
    (h : ∀ phrases, readPhrases (tokensOf source) = .ok phrases →
      ∀ call ∈ callsOf phrases, call.Recasts source first second related) :
    ∃ other, parse second source = .ok other ∧ Recast related program.nodes other.nodes := by
  rcases parse_eq_ok_iff.1 hparse with ⟨phrases, hread, hnodes⟩
  rcases nodesOf_recast (h phrases hread) hnodes with ⟨others, hothers, hrecast⟩
  exact ⟨⟨others⟩, parse_eq_ok_iff.2 ⟨phrases, hread, hothers⟩, hrecast⟩

end TwoCatalogs

/-! ### Trees without their calls' details -/

mutual

/-- A node in which every call keeps its name and its hook, and nothing else. -/
def Node.skeleton : Node → Node
  | .hook children => .hook (skeletonAll children)
  | .call known attached => .unknownCall known.name "" (skeletonHook attached)
  | .unknownCall name _ attached => .unknownCall name "" (skeletonHook attached)
  | .text content => .text content
  | .literal value => .literal value
  | .link sides => .link sides

/-- Nodes in which every call keeps its name and its hook. -/
def skeletonAll : List Node → List Node
  | [] => []
  | node :: rest => node.skeleton :: skeletonAll rest

/-- A hook in which every call keeps its name and its hook. -/
def skeletonHook : Option (List Node) → Option (List Node)
  | none => none
  | some children => some (skeletonAll children)

end

/-- A tree in which every call keeps its name and its hook: whether it is known, its keyword, arguments
and pattern, and its text are forgotten. -/
def Program.skeleton (program : Program) : Program :=
  ⟨skeletonAll program.nodes⟩

theorem skeleton_node (form : CallForm) (hook : Option (List Node)) :
    (form.node hook).skeleton = .unknownCall form.name "" (skeletonHook hook) := by
  cases form <;> rfl

/-- Trees that differ in the form of their calls, but not in their names, have the same skeleton. -/
theorem skeletonAll_of_recast {nodes others : List Node}
    (h : Recast (fun form other => form.name = other.name) nodes others) :
    skeletonAll nodes = skeletonAll others := by
  induction h with
  | nil => rfl
  | text _ ih | literal _ ih | link _ ih => simp only [skeletonAll, Node.skeleton, ih]
  | hook _ _ ihChildren ih => simp only [skeletonAll, Node.skeleton, ihChildren, ih]
  | call hform _ ih => simp only [skeletonAll, skeleton_node, hform, ih]
  | hooked hform _ _ ihChildren ih =>
      simp only [skeletonAll, skeleton_node, skeletonHook, hform, ihChildren, ih]

/-! ### Two catalogs for one passage -/

/-- Whether a passage is refused for its grammar, not for the arguments of a call. -/
def ParseError.isGrammatical : ParseError → Bool
  | .noMatchingRule .. | .trailingInput .. => true
  | .tokenization .. | .callShape .. => false

/-- The names of the calls of a passage, at whatever depth; a passage that the grammar refuses has none. -/
def callNames (source : String) : List String :=
  match readPhrases (tokensOf source) with
  | .ok phrases => (callsOf phrases).map CallText.name
  | .error _ => []

/-- A passage whose phrases can be read is never refused for its grammar. -/
theorem not_isGrammatical_of_read {catalog : Catalog} {source : String} {phrases : List Phrase}
    {error : ParseError} (hread : readPhrases (tokensOf source) = .ok phrases)
    (herror : parse catalog source = .error error) : error.isGrammatical = false := by
  have hfails := failure?_eq_some.2 herror
  rw [failure?_parse hread, failure?_nodesOf] at hfails
  rcases List.exists_of_findSome?_eq_some hfails with ⟨call, _, hcall⟩
  rcases failure?_check.1 hcall with ⟨mismatch, _, rfl⟩
  rfl

theorem parse_eq_of_read {catalog : Catalog} {source : String} {phrases : List Phrase}
    (hread : readPhrases (tokensOf source) = .ok phrases) :
    parse catalog source = (nodesOf source catalog phrases).map Program.mk := by
  rw [parse_eq, phrasesOf_eq, hread]
  show (nodesOf source catalog phrases >>= fun nodes => pure (Program.mk nodes)) = _
  cases nodesOf source catalog phrases <;> rfl

/-- In an accepted passage every call has passed its check. -/
theorem exists_check_of_nodesOf {source : String} {catalog : Catalog} {phrases : List Phrase}
    {nodes : List Node} (hnodes : nodesOf source catalog phrases = .ok nodes) :
    ∀ call ∈ callsOf phrases, ∃ pattern, call.check source catalog = .ok pattern := by
  intro call hcall
  have hpasses := failure?_nodesOf source catalog phrases
  rw [hnodes] at hpasses
  have hnone := List.findSome?_eq_none_iff.1 hpasses.symm call hcall
  cases hcheck : call.check source catalog with
  | ok pattern => exact ⟨pattern, rfl⟩
  | error e =>
      rw [hcheck] at hnone
      cases hnone

/-- A call is checked alike by catalogs that agree on its name. -/
theorem check_congr {source : String} {first second : Catalog} {call : CallText}
    (h : first.get? call.name = second.get? call.name) :
    call.check source first = call.check source second := by
  simp only [CallText.check, Catalog.check, h]

/-- Two catalogs refuse the same passages for their grammar, with the same error. If they agree on the
names of the calls of a passage, their answers are equal. And where both accept it, the two trees are equal
once it is forgotten how each call is shown. -/
theorem parse_catalogs_agree (first second : Catalog) (source : String) :
    (∀ error, error.isGrammatical = true →
      (parse first source = .error error ↔ parse second source = .error error)) ∧
    ((∀ name ∈ callNames source, first.get? name = second.get? name) →
      parse first source = parse second source) ∧
    ∀ program other, parse first source = .ok program → parse second source = .ok other →
      program.skeleton = other.skeleton := by
  cases hread : readPhrases (tokensOf source) with
  | error stop =>
      have hsame : parse first source = parse second source :=
        (parse_of_stop hread).trans (parse_of_stop hread).symm
      refine ⟨fun error _ => by rw [hsame], fun _ => hsame, ?_⟩
      intro program other hprogram _
      rw [parse_of_stop hread] at hprogram
      cases hprogram
  | ok phrases =>
      have hnames : callNames source = (callsOf phrases).map CallText.name := by
        rw [callNames, hread]
      refine ⟨?_, ?_, ?_⟩
      · intro error hgrammatical
        have hnever : ∀ catalog : Catalog, parse catalog source ≠ .error error := by
          intro catalog herror
          rw [not_isGrammatical_of_read hread herror] at hgrammatical
          cases hgrammatical
        exact ⟨fun h => absurd h (hnever first), fun h => absurd h (hnever second)⟩
      · intro hagree
        rw [hnames] at hagree
        rw [parse_eq_of_read hread, parse_eq_of_read hread, nodesOf_congr]
        intro call hcall
        exact check_congr (hagree call.name (List.mem_map_of_mem hcall))
      · intro program other hprogram hother
        rcases parse_eq_ok_iff.1 hother with ⟨_, hread', hnodes⟩
        cases hread.symm.trans hread'
        have hrecasts : ∀ read, readPhrases (tokensOf source) = .ok read → ∀ call ∈ callsOf read,
            call.Recasts source first second fun form answer => form.name = answer.name := by
          intro _ hphrases call hcall pattern _
          cases hread.symm.trans hphrases
          rcases exists_check_of_nodesOf hnodes call hcall with ⟨answer, hanswer⟩
          exact ⟨answer, hanswer, by simp only [name_form]⟩
        rcases parse_recast hprogram hrecasts with ⟨_, hsame, hrecast⟩
        cases hother.symm.trans hsame
        rw [Program.skeleton, Program.skeleton, skeletonAll_of_recast hrecast]

/-- A passage under the catalog that knows calls from the start and under the one that knows none. -/
theorem parse_catalogs_agree_empty :
    ∃ program other, parse .builtin "(set: $n to 1) (if: $n)[(box: 2)[x]]" = .ok program ∧
      parse .empty "(set: $n to 1) (if: $n)[(box: 2)[x]]" = .ok other ∧
      program.nodes.map Node.typeName = ["Macro", "Macro"] ∧
      other.nodes.map Node.typeName = ["UnknownMacro", "UnknownMacro"] ∧
      program.skeleton = other.skeleton := by
  have hknown : (parse .builtin "(set: $n to 1) (if: $n)[(box: 2)[x]]").toOption.map
      (fun program => program.nodes.map Node.typeName) = some ["Macro", "Macro"] := by decide +kernel
  have hunknown : (parse .empty "(set: $n to 1) (if: $n)[(box: 2)[x]]").toOption.map
      (fun program => program.nodes.map Node.typeName) = some ["UnknownMacro", "UnknownMacro"] := by
    decide +kernel
  rcases Option.map_eq_some_iff.1 hknown with ⟨program, hprogram, hkinds⟩
  rcases Option.map_eq_some_iff.1 hunknown with ⟨other, hother, hothers⟩
  have hfirst := except_toOption_eq_some.1 hprogram
  have hsecond := except_toOption_eq_some.1 hother
  exact ⟨program, other, hfirst, hsecond, hkinds, hothers,
    (parse_catalogs_agree .builtin .empty _).2.2 program other hfirst hsecond⟩

end PassageMarkup
