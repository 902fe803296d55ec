/-
Module: PassageMarkup.Proofs.LineFeeds
Layer: Proofs
Purpose: The line feeds of a tree view. Each node puts one at the end of its line, and its label puts there
  those that it shows. So the tree view has as many line feeds as the tree has nodes exactly if no label that
  is shown has one; a passage that stands on one line has such a tree, and a text of two lines has none.
Imports: Proofs.LabelCharacters, Proofs.TreeLines
Main exports: lineFeeds, OneLine, HasOneLineLabels, lineFeeds_lineAt, Siblings.of_nodeAt,
  lineFeeds_treeView_iff
-/
import PassageMarkup.Proofs.LabelCharacters
import PassageMarkup.Proofs.TreeLines

namespace PassageMarkup

/-- Number of line feeds in a text. -/
def lineFeeds (text : String) : Nat :=
  text.toList.count '\n'

/-- A text without a line feed. -/
def OneLine (text : String) : Prop :=
  '\n' ∉ text.toList

instance (text : String) : Decidable (OneLine text) :=
  inferInstanceAs (Decidable ('\n' ∉ text.toList))

/-- Nodes such that no label that their tree shows has a line feed. -/
def HasOneLineLabels (nodes : List Node) : Prop :=
  ∀ address node, nodeAt? nodes address = some node → OneLine (shorten node.label)

/-! ### Counting -/

theorem lineFeeds_append (first second : String) :
    lineFeeds (first ++ second) = lineFeeds first + lineFeeds second := by
  rw [lineFeeds, String.toList_append, List.count_append]
  rfl

theorem lineFeeds_eq_zero_iff {text : String} : lineFeeds text = 0 ↔ OneLine text :=
  List.count_eq_zero

theorem oneLine_join {texts : List String} : OneLine (String.join texts) ↔ ∀ text ∈ texts, OneLine text := by
  simp only [OneLine, String.toList_join, List.mem_flatMap, not_exists, not_and]

/-- The name of a type is a word. -/
theorem typeName_plain (node : Node) : ':' ∉ node.typeName.toList ∧ OneLine node.typeName := by
  cases node with
  | literal value => cases value <;> (rw [Node.typeName, Literal.typeName]; decide)
  | text | hook | link | call | unknownCall => rw [Node.typeName]; decide

/-- The line of a node has the line feeds of its label. -/
theorem lineFeeds_lineAt (nodes : List Node) (address : List Nat) (node : Node) :
    lineFeeds (lineAt nodes address node) = lineFeeds (shorten node.label) := by
  have hstem : ∀ last, OneLine (stem last) := by decide
  have hstems :
      lineFeeds (String.join ((ancestors address).map fun outer => stem (isLastAt nodes outer))) = 0 := by
    rw [lineFeeds_eq_zero_iff, oneLine_join, List.forall_mem_map]
    exact fun outer _ => hstem _
  have hconnector : ∀ last, lineFeeds (connector last) = 0 := by decide
  have htype : lineFeeds node.typeName = 0 := lineFeeds_eq_zero_iff.2 (typeName_plain node).2
  have hcolon : lineFeeds ": " = 0 := by decide
  simp only [lineAt, Node.title, lineFeeds_append, hstems, hconnector, htype, hcolon, Nat.zero_add]

theorem oneLine_lineAt {nodes : List Node} {address : List Nat} {node : Node}
    (h : OneLine (shorten node.label)) : OneLine (lineAt nodes address node) := by
  rwa [← lineFeeds_eq_zero_iff, lineFeeds_lineAt, lineFeeds_eq_zero_iff]

/-- Lines have a line feed each, and those of their labels. -/
theorem lineFeeds_lines (nodes : List Node) (visits : List (List Nat × Node)) :
    lineFeeds (String.join (visits.map fun visit => lineAt nodes visit.1 visit.2 ++ "\n")) =
      visits.length + lineFeeds (String.join (visits.map fun visit => shorten visit.2.label)) := by
  have hend : lineFeeds "\n" = 1 := by decide
  induction visits with
  | nil => rfl
  | cons visit visits ih =>
      rw [List.map_cons, String.join_cons, lineFeeds_append, lineFeeds_append, lineFeeds_lineAt, hend, ih,
        List.map_cons, String.join_cons, lineFeeds_append, List.length_cons]
      omega

theorem InPreorder.hasOneLineLabels_iff {nodes : List Node} {visits : List (List Nat × Node)}
    (h : InPreorder nodes visits) :
    HasOneLineLabels nodes ↔ ∀ visit ∈ visits, OneLine (shorten visit.2.label) := by
  simp only [HasOneLineLabels, Prod.forall, h.mem_iff]

/-! ### Passages of one line -/

/-- A node at an address is in a list of siblings. -/
theorem Siblings.of_nodeAt {program : Program} {level : Level} {nodes : List Node} {address : List Nat}
    {node : Node} (hsiblings : Siblings program level nodes) (h : nodeAt? nodes address = some node) :
    ∃ level others, Siblings program level others ∧ node ∈ others := by
  fun_induction nodeAt? nodes address generalizing level with
  | case1 => cases h
  | case2 nodes i => exact ⟨level, nodes, hsiblings, List.mem_of_getElem? h⟩
  | case3 nodes i j inner ih =>
      rcases Option.bind_eq_some_iff.1 h with ⟨outer, houter, hinner⟩
      cases hhook : outer.hook? with
      | none =>
          rw [Node.children, hhook, Option.getD_none, nodeAt?_none] at hinner
          cases hinner
      | some children =>
          have hinside : Siblings program .hook outer.children := by
            rw [Node.children, hhook]
            exact .inside hsiblings (List.mem_of_getElem? houter) hhook
          exact ih outer hinside hinner

theorem MadeFrom.shorten {source text : String} (h : MadeFrom source text) :
    MadeFrom source (shorten text) := by
  unfold PassageMarkup.shorten
  split
  · exact madeFrom_append.2 ⟨h.subset (List.take_subset _ _), madeFrom_graphic (by decide)⟩
  · exact h

theorem MadeFrom.oneLine {source text : String} (h : MadeFrom source text) (hsource : OneLine source) :
    OneLine text := by
  intro hmem
  rcases h _ hmem with hmem | hgraphic
  · exact hsource hmem
  · exact absurd hgraphic (by decide)

theorem hasOneLineLabels_of_parse {catalog : Catalog} {source : String} {program : Program}
    (hparse : parse catalog source = .ok program) (hsource : OneLine source) :
    HasOneLineLabels program.nodes := by
  intro address node haddress
  rcases Siblings.top.of_nodeAt haddress with ⟨level, nodes, hsiblings, hmem⟩
  exact (madeFrom_label hparse hsiblings hmem).shorten.oneLine hsource

/-- The tree view of a passage is a line for each node, in the order of the passage, with a line feed behind
it. It has as many line feeds as there are nodes exactly if none of the labels shown has one, and always if
the passage has none. -/
theorem lineFeeds_treeView_iff {catalog : Catalog} {source : String} {program : Program}
    (hparse : parse catalog source = .ok program) :
    (∃ visits, InPreorder program.nodes visits ∧ visits.length = program.nodeCount ∧
      program.treeView =
        String.join (visits.map fun visit => lineAt program.nodes visit.1 visit.2 ++ "\n")) ∧
    (lineFeeds program.treeView = program.nodeCount ↔ HasOneLineLabels program.nodes) ∧
    (OneLine source → lineFeeds program.treeView = program.nodeCount) := by
  rcases exists_treeView_lines program with ⟨visits, hvisits, hlength, hlines⟩
  have hiff : lineFeeds program.treeView = program.nodeCount ↔ HasOneLineLabels program.nodes := by
    rw [hvisits.hasOneLineLabels_iff, hlines, lineFeeds_lines, hlength, Nat.add_eq_left,
      lineFeeds_eq_zero_iff, oneLine_join, List.forall_mem_map]
  refine ⟨⟨visits, hvisits, hlength, hlines⟩, hiff, ?_⟩
  intro hsource
  exact hiff.2 (hasOneLineLabels_of_parse hparse hsource)

/-- Line feeds between the nodes of a passage are in none of its labels. -/
theorem lineFeeds_treeView_between :
    ∃ program, parse .builtin "(if: $n)[\n[[Home]]\n]" = .ok program ∧ program.nodeCount = 2 ∧
      lineFeeds program.treeView = 2 ∧ HasOneLineLabels program.nodes := by
  have hcounts : (parse .builtin "(if: $n)[\n[[Home]]\n]").toOption.map
      (fun program => (program.nodeCount, lineFeeds program.treeView)) = some (2, 2) := by decide +kernel
  rcases Option.map_eq_some_iff.1 hcounts with ⟨program, hprogram, hcount⟩
  obtain ⟨hnodes, hfeeds⟩ := Prod.mk.inj hcount
  have hparse := except_toOption_eq_some.1 hprogram
  exact ⟨program, hparse, hnodes, hfeeds, (lineFeeds_treeView_iff hparse).2.1.1 (hfeeds.trans hnodes.symm)⟩

/-- A text of two lines is one node, and two lines of the tree view. -/
theorem lineFeeds_treeView_two_lines :
    ∃ program, parse .builtin "one\ntwo" = .ok program ∧ program.nodeCount = 1 ∧
      program.treeView = "└─ Text: one\ntwo\n" ∧ lineFeeds program.treeView = 2 := by
  have hview : (parse .builtin "one\ntwo").toOption.map
      (fun program => (program.nodeCount, program.treeView)) = some (1, "└─ Text: one\ntwo\n") := by
    decide +kernel
  rcases Option.map_eq_some_iff.1 hview with ⟨program, hprogram, hshown⟩
  obtain ⟨hnodes, hlines⟩ := Prod.mk.inj hshown
  exact ⟨program, except_toOption_eq_some.1 hprogram, hnodes, hlines, hlines ▸ by decide⟩

end PassageMarkup
