/-
Module: PassageMarkup.Proofs.TreeShape
Layer: Proofs
Purpose: The tree view tells the outline of a tree, if no label that it shows has a line feed. The nodes
  drawn behind a margin end where a line does not go on behind that margin, so a drawing can be cut from the
  text behind it: the connector tells whether a node is the last of its siblings, the first colon ends the
  type and the first line feed the label. Box characters, blanks and colons in labels do no harm.
Imports: Proofs.LineFeeds
Main exports: drawn, Stops, eq_of_first, drawn_cons, Stops.inside, outlines_eq_of_drawn,
  treeView_determines_outlines
-/
import PassageMarkup.Proofs.LineFeeds

namespace PassageMarkup

/-! ### Texts behind a drawing -/

/-- The characters that nodes are drawn with behind a margin. -/
def drawn (margin : String) (nodes : List Node) : List Char :=
  (drawAll margin (outlines nodes)).toList

/-- A text that does not go on behind a margin. -/
def Stops (margin : String) (tail : List Char) : Prop :=
  ∀ c rest, tail ≠ margin.toList ++ c :: rest

/-- A text is cut at the first place of a character in one way. -/
theorem eq_of_first {α : Type} {a : α} {first second rest rest' : List α} (hfirst : a ∉ first)
    (hsecond : a ∉ second) (h : first ++ a :: rest = second ++ a :: rest') :
    first = second ∧ rest = rest' := by
  induction first generalizing second with
  | nil =>
      cases second with
      | nil => exact ⟨rfl, (List.cons.inj h).2⟩
      | cons b second => exact absurd ((List.cons.inj h).1 ▸ List.mem_cons_self) hsecond
  | cons b first ih =>
      cases second with
      | nil => exact absurd ((List.cons.inj h).1 ▸ List.mem_cons_self) hfirst
      | cons c second =>
          obtain ⟨rfl, htail⟩ := List.cons.inj h
          rcases ih (fun hmem => hfirst (List.mem_cons_of_mem _ hmem))
            (fun hmem => hsecond (List.mem_cons_of_mem _ hmem)) htail with ⟨rfl, hrest⟩
          exact ⟨rfl, hrest⟩

/-- The connectors of two nodes are the same only if both are the last or both are not. -/
theorem eq_of_connector {last last' : Bool} {rest rest' : List Char}
    (h : (connector last).toList ++ rest = (connector last').toList ++ rest') :
    last = last' ∧ rest = rest' := by
  cases last <;> cases last' <;> simp_all [connector]

/-- No connector starts as a stem does. -/
theorem connector_ne_stem {last last' : Bool} {rest rest' : List Char} :
    (connector last).toList ++ rest ≠ (stem last').toList ++ rest' := by
  cases last <;> cases last' <;> simp [connector, stem]

section

variable {margin : String} {node : Node} {rest : List Node} {tail : List Char}

theorem drawn_cons (margin : String) (node : Node) (rest : List Node) :
    drawn margin (node :: rest) =
      margin.toList ++ ((connector rest.isEmpty).toList ++ (node.typeName.toList ++ ':' ::
        (' ' :: (shorten node.label).toList ++ '\n' ::
          (drawn (margin ++ stem rest.isEmpty) node.children ++ drawn margin rest)))) := by
  simp [drawn, drawAll_cons, Node.title]

/-- Behind the margin of the nodes inside a node stand neither its siblings nor what is behind them. -/
theorem Stops.inside (h : Stops margin tail) (rest : List Node) :
    Stops (margin ++ stem rest.isEmpty) (drawn margin rest ++ tail) := by
  intro c later heq
  rw [String.toList_append, List.append_assoc] at heq
  cases rest with
  | nil => exact h ' ' (' ' :: c :: later) heq
  | cons node others =>
      rw [drawn_cons, List.append_assoc, List.append_assoc] at heq
      exact connector_ne_stem (List.append_cancel_left heq)

/-- What is drawn of nodes is not a text that stops at their margin. -/
theorem Stops.ne_drawn (h : Stops margin tail) {later : List Char} :
    tail ≠ drawn margin (node :: rest) ++ later := by
  rw [drawn_cons, List.append_assoc, List.append_assoc]
  cases rest.isEmpty <;> exact h _ _

end

/-! ### Outlines -/

theorem HasOneLineLabels.cons {node : Node} {rest : List Node} (h : HasOneLineLabels (node :: rest)) :
    OneLine (shorten node.label) ∧ HasOneLineLabels node.children ∧ HasOneLineLabels rest := by
  refine ⟨h [0] node rfl, ?_, ?_⟩
  · intro address inner hinner
    have hne : address ≠ [] := by
      rintro rfl
      cases hinner
    exact h (0 :: address) inner ((nodeAt?_inside node rest hne).trans hinner)
  · intro address other hother
    exact h (advance address) other ((nodeAt?_advance node rest address).trans hother)

/-- Two drawings behind one margin, each in front of a text that stops there, are of the same outlines.
By induction on the first tree: the nodes inside the first node are read with its siblings behind them. -/
theorem outlines_eq_of_drawn {nodes others : List Node} (hnodes : HasOneLineLabels nodes)
    (hothers : HasOneLineLabels others) {margin : String} {tail tail' : List Char}
    (hstops : Stops margin tail) (hstops' : Stops margin tail')
    (h : drawn margin nodes ++ tail = drawn margin others ++ tail') :
    outlines nodes = outlines others ∧ tail = tail' := by
  induction nodes using forest_induction generalizing others margin tail tail' with
  | nil =>
      cases others with
      | nil => exact ⟨rfl, h⟩
      | cons node rest => exact absurd h hstops.ne_drawn
  | cons node rest ihChildren ihRest =>
      cases others with
      | nil => exact absurd h.symm hstops'.ne_drawn
      | cons node' rest' =>
          rcases hnodes.cons with ⟨hlabel, hchildren, hrest⟩
          rcases hothers.cons with ⟨hlabel', hchildren', hrest'⟩
          simp only [drawn_cons, List.append_assoc, List.cons_append] at h
          -- both lines end their parts at the same places, whatever the labels hold
          rcases eq_of_connector (List.append_cancel_left h) with ⟨hlast, hline⟩
          rcases eq_of_first (typeName_plain node).1 (typeName_plain node').1 hline with ⟨htype, hbehind⟩
          rcases eq_of_first hlabel hlabel' (List.cons.inj hbehind).2 with ⟨hshown, hinside⟩
          -- the margin below is the same too, since both nodes are the last or both are not
          have hchildrenStop := hstops.inside rest
          have hchildrenStop' := hstops'.inside rest'
          rw [← hlast] at hinside hchildrenStop'
          rcases ihChildren hchildren hchildren' hchildrenStop hchildrenStop' hinside with ⟨hinner, hlater⟩
          rcases ihRest hrest hrest' hstops hstops' hlater with ⟨hsiblings, htail⟩
          refine ⟨?_, htail⟩
          rw [outlines_cons, outlines_cons, Node.entry, Node.entry, hinner, hsiblings,
            String.toList_inj.1 htype, String.toList_inj.1 hshown]

theorem outlines_eq_of_treeView {program other : Program} (hprogram : HasOneLineLabels program.nodes)
    (hother : HasOneLineLabels other.nodes) (h : program.treeView = other.treeView) :
    outlines program.nodes = outlines other.nodes := by
  have hstops : Stops "" [] := by simp [Stops]
  have hdrawn : drawn "" program.nodes ++ [] = drawn "" other.nodes ++ [] :=
    congrArg (fun view => view.toList ++ []) h
  exact (outlines_eq_of_drawn hprogram hother hstops hstops hdrawn).1

/-- If no label shown has a line feed, then the tree view tells the outline: trees with the same view have
the same types and shown labels at the same places. And its lines are the nodes in the order of the passage;
in front of each stands a group of two characters for each node around it, blank if that node is the last
among its siblings. -/
theorem treeView_determines_outlines {program : Program} (hprogram : HasOneLineLabels program.nodes) :
    (∀ other : Program, HasOneLineLabels other.nodes →
      (program.treeView = other.treeView ↔ outlines program.nodes = outlines other.nodes)) ∧
    ∃ visits, InPreorder program.nodes visits ∧
      program.treeView =
        String.join (visits.map fun visit => lineAt program.nodes visit.1 visit.2 ++ "\n") ∧
      ∀ visit ∈ visits, OneLine (lineAt program.nodes visit.1 visit.2) := by
  constructor
  · intro other hother
    refine ⟨outlines_eq_of_treeView hprogram hother, ?_⟩
    intro houtlines
    rw [Program.treeView, houtlines, Program.treeView]
  · rcases exists_treeView_lines program with ⟨visits, hvisits, -, hlines⟩
    refine ⟨visits, hvisits, hlines, ?_⟩
    intro visit hmem
    exact oneLine_lineAt (hvisits.hasOneLineLabels_iff.1 hprogram visit hmem)

/-- Two passages that differ behind the thirty characters that are shown of a label; the label itself has the
signs of a margin and a colon. -/
theorem treeView_determines_outlines_shortened :
    ∃ program other,
      parse .builtin "[│ a: b, and so on from here to x]y" = .ok program ∧
        parse .builtin "[│ a: b, and so on from here to z]y" = .ok other ∧
        HasOneLineLabels program.nodes ∧ HasOneLineLabels other.nodes ∧
        program.treeView = other.treeView ∧ outlines program.nodes = outlines other.nodes := by
  have hfirst : (parse .builtin "[│ a: b, and so on from here to x]y").toOption.map
      Program.treeView =
        some "├─ Hook: 1 item\n│ └─ Text: │ a: b, and so on from here to...\n└─ Text: y\n" := by
    decide +kernel
  have hsecond : (parse .builtin "[│ a: b, and so on from here to z]y").toOption.map
      Program.treeView =
        some "├─ Hook: 1 item\n│ └─ Text: │ a: b, and so on from here to...\n└─ Text: y\n" := by
    decide +kernel
  rcases Option.map_eq_some_iff.1 hfirst with ⟨program, hprogram, hview⟩
  rcases Option.map_eq_some_iff.1 hsecond with ⟨other, hother, hotherView⟩
  have hparse := except_toOption_eq_some.1 hprogram
  have hotherParse := except_toOption_eq_some.1 hother
  have hlabels := hasOneLineLabels_of_parse hparse (by decide)
  have hotherLabels := hasOneLineLabels_of_parse hotherParse (by decide)
  have hsame : program.treeView = other.treeView := hview.trans hotherView.symm
  exact ⟨program, other, hparse, hotherParse, hlabels, hotherLabels, hsame,
    ((treeView_determines_outlines hlabels).1 other hotherLabels).1 hsame⟩

end PassageMarkup
