/-
Module: PassageMarkup.Proofs.TreeLines
Layer: Proofs
Purpose: The lines of a tree view. A node of a tree has an address: its index among its siblings, behind those
  of the nodes around it. Addresses in lexicographic order are the nodes in the order of the passage, each in
  front of the nodes inside it. The tree view is one line for each address, in this order; what stands in
  front of a node can be told from its address alone, by asking which addresses have a next sibling.
Imports: Report.TreeView
Main exports: forest_induction, drawAll_cons, nodeAt?, nextSibling, isLastAt, ancestors, lineAt, InPreorder,
  exists_lines, exists_treeView_lines
-/
import PassageMarkup.Report.TreeView

namespace PassageMarkup

/-! ### Forests -/

theorem size_eq (node : Node) : node.size = 1 + sizeAll node.children := by
  cases node with
  | text | literal | link => rfl
  | hook children => simp [Node.size, Node.children, Node.hook?]
  | call known attached | unknownCall name raw attached =>
      cases attached <;> simp [Node.size, sizeHook, sizeAll, Node.children, Node.hook?]

theorem sizeAll_cons (node : Node) (rest : List Node) :
    sizeAll (node :: rest) = 1 + sizeAll node.children + sizeAll rest := by
  rw [sizeAll, size_eq]

/-- What holds of no nodes, and of nodes whenever it holds of the children of the first and of the others,
holds of all nodes. -/
theorem forest_induction {motive : List Node → Prop} (nil : motive [])
    (cons : ∀ node rest, motive node.children → motive rest → motive (node :: rest)) (nodes : List Node) :
    motive nodes := by
  match nodes with
  | [] => exact nil
  | node :: rest =>
      have hsize := sizeAll_cons node rest
      exact cons node rest (forest_induction nil cons node.children) (forest_induction nil cons rest)
termination_by sizeAll nodes
decreasing_by all_goals omega

theorem outline_eq (node : Node) : node.outline = node.entry (outlines node.children) := by
  cases node with
  | text | literal | link | hook => rfl
  | call known attached | unknownCall name raw attached => cases attached <;> rfl

theorem outlines_cons (node : Node) (rest : List Node) :
    outlines (node :: rest) = node.entry (outlines node.children) :: outlines rest := by
  rw [outlines, outline_eq]

/-! ### Drawing -/

/-- What the lines of the nodes inside a node have in front, below the connector of that node. -/
def stem (last : Bool) : String :=
  if last then "  " else "│ "

/-- What stands in front of the type of a node. -/
def connector (last : Bool) : String :=
  if last then "└─ " else "├─ "

/-- The type and the label of a node, as its line shows them. -/
def Node.title (node : Node) : String :=
  node.typeName ++ ": " ++ shorten node.label

/-- Nodes are drawn as the line of the first, the nodes inside it and then the others. -/
theorem drawAll_cons (margin : String) (node : Node) (rest : List Node) :
    drawAll margin (outlines (node :: rest)) =
      margin ++ (connector rest.isEmpty ++ node.title) ++ "\n" ++
        drawAll (margin ++ stem rest.isEmpty) (outlines node.children) ++ drawAll margin (outlines rest) := by
  have hlast : (outlines rest).isEmpty = rest.isEmpty := by cases rest <;> rfl
  rw [outlines_cons, drawAll, Node.entry, Outline.draw, hlast]
  simp only [connector, stem, Node.title, String.append_assoc]

/-! ### Addresses -/

/-- The node at an address: an index among the nodes, then an index among the children of that node, and so
on. -/
def nodeAt? : List Node → List Nat → Option Node
  | _, [] => none
  | nodes, [i] => nodes[i]?
  | nodes, i :: j :: inner => nodes[i]?.bind fun node => nodeAt? node.children (j :: inner)

/-- The address behind an address, among its siblings. -/
def nextSibling : List Nat → List Nat
  | [] => []
  | [i] => [i + 1]
  | i :: j :: inner => i :: nextSibling (j :: inner)

/-- Whether the node at an address is the last among its siblings. -/
def isLastAt (nodes : List Node) (address : List Nat) : Bool :=
  (nodeAt? nodes (nextSibling address)).isNone

/-- The addresses of the nodes around an address, from the outside in. -/
def ancestors : List Nat → List (List Nat)
  | i :: j :: inner => [i] :: (ancestors (j :: inner)).map (i :: ·)
  | _ => []

/-- The line of a node at an address: a group of two characters for each node around it, which is blank if
that node is the last among its siblings; a connector; and its type and label. -/
def lineAt (nodes : List Node) (address : List Nat) (node : Node) : String :=
  String.join ((ancestors address).map fun outer => stem (isLastAt nodes outer)) ++
    (connector (isLastAt nodes address) ++ node.title)

/-- Nodes with their addresses, all of them and in the order of the passage: each in front of the nodes
inside it and of the siblings behind it. -/
structure InPreorder (nodes : List Node) (visits : List (List Nat × Node)) : Prop where
  increasing : visits.Pairwise fun first second => first.1 < second.1
  mem_iff : ∀ address node, (address, node) ∈ visits ↔ nodeAt? nodes address = some node

section Addresses

variable {address : List Nat}

theorem nodeAt?_none (address : List Nat) : nodeAt? [] address = none := by
  match address with
  | [] => rfl
  | [i] => rfl
  | i :: j :: inner => rfl

theorem nextSibling_ne_nil (h : address ≠ []) : nextSibling address ≠ [] := by
  fun_cases nextSibling address with
  | case1 => exact absurd rfl h
  | case2 | case3 => exact List.cons_ne_nil _ _

theorem ne_nil_of_mem_ancestors {outer : List Nat} (h : outer ∈ ancestors address) : outer ≠ [] := by
  unfold ancestors at h
  split at h
  · rcases List.mem_cons.1 h with rfl | h
    · exact List.cons_ne_nil _ _
    · rcases List.mem_map.1 h with ⟨_, _, rfl⟩
      exact List.cons_ne_nil _ _
  · cases h

/-! The addresses inside the first of some nodes start with zero. -/

theorem nextSibling_inside (i : Nat) (h : address ≠ []) :
    nextSibling (i :: address) = i :: nextSibling address := by
  cases address with
  | nil => exact absurd rfl h
  | cons => rfl

theorem ancestors_inside (i : Nat) (h : address ≠ []) :
    ancestors (i :: address) = [i] :: (ancestors address).map (i :: ·) := by
  cases address with
  | nil => exact absurd rfl h
  | cons => rfl

/-! The addresses of the nodes behind the first are moved by one. -/

/-- The address of a node with one more node in front. -/
def advance (address : List Nat) : List Nat :=
  address.modifyHead (· + 1)

theorem nextSibling_advance (address : List Nat) :
    nextSibling (advance address) = advance (nextSibling address) := by
  fun_cases nextSibling address <;> rfl

theorem ancestors_advance (address : List Nat) :
    ancestors (advance address) = (ancestors address).map advance := by
  match address with
  | [] => rfl
  | [i] => rfl
  | i :: j :: inner => simp [advance, ancestors, Function.comp_def]

variable (node : Node) (rest : List Node)

theorem nodeAt?_inside (h : address ≠ []) :
    nodeAt? (node :: rest) (0 :: address) = nodeAt? node.children address := by
  cases address with
  | nil => exact absurd rfl h
  | cons => rfl

theorem nodeAt?_advance (address : List Nat) :
    nodeAt? (node :: rest) (advance address) = nodeAt? rest address := by
  match address with
  | [] => rfl
  | [i] => rfl
  | i :: j :: inner => rfl

theorem isLastAt_first : isLastAt (node :: rest) [0] = rest.isEmpty := by
  cases rest <;> rfl

theorem isLastAt_inside (h : address ≠ []) :
    isLastAt (node :: rest) (0 :: address) = isLastAt node.children address := by
  rw [isLastAt, nextSibling_inside 0 h, nodeAt?_inside node rest (nextSibling_ne_nil h), isLastAt]

theorem isLastAt_advance (address : List Nat) :
    isLastAt (node :: rest) (advance address) = isLastAt rest address := by
  rw [isLastAt, nextSibling_advance, nodeAt?_advance, isLastAt]

theorem lineAt_first (other : Node) :
    lineAt (node :: rest) [0] other = connector rest.isEmpty ++ other.title := by
  simp [lineAt, ancestors, isLastAt_first]

theorem lineAt_inside (h : address ≠ []) (other : Node) :
    lineAt (node :: rest) (0 :: address) other = stem rest.isEmpty ++ lineAt node.children address other := by
  have hstems : (ancestors address).map (fun outer => stem (isLastAt (node :: rest) (0 :: outer))) =
      (ancestors address).map fun outer => stem (isLastAt node.children outer) :=
    List.map_congr_left fun outer hmem => by rw [isLastAt_inside node rest (ne_nil_of_mem_ancestors hmem)]
  rw [lineAt, ancestors_inside 0 h, List.map_cons, List.map_map, isLastAt_first, isLastAt_inside node rest h,
    lineAt, String.join_cons, String.append_assoc, Function.comp_def, hstems]

theorem lineAt_advance (address : List Nat) (other : Node) :
    lineAt (node :: rest) (advance address) other = lineAt rest address other := by
  simp only [lineAt, ancestors_advance, List.map_map, Function.comp_def, isLastAt_advance]

end Addresses

/-! ### The nodes in the order of the passage -/

/-- The addresses of nodes: of the first, of those inside it and of the others. -/
def visitsOf (node : Node) (inner others : List (List Nat × Node)) : List (List Nat × Node) :=
  ([0], node) :: (inner.map (fun visit => (0 :: visit.1, visit.2)) ++
    others.map fun visit => (advance visit.1, visit.2))

theorem InPreorder.ne_nil {nodes : List Node} {visits : List (List Nat × Node)}
    (h : InPreorder nodes visits) : ∀ visit ∈ visits, visit.1 ≠ [] := by
  rintro ⟨address, node⟩ hmem rfl
  cases (h.mem_iff [] node).1 hmem

theorem mem_visitsOf {node other : Node} {inner others : List (List Nat × Node)} {address : List Nat} :
    (address, other) ∈ visitsOf node inner others ↔ (address = [0] ∧ other = node) ∨
      (∃ below, (below, other) ∈ inner ∧ 0 :: below = address) ∨
      ∃ later, (later, other) ∈ others ∧ advance later = address := by
  simp only [visitsOf, List.mem_cons, List.mem_append, List.mem_map, Prod.mk.injEq, Prod.exists]
  grind

theorem lt_advance (below : List Nat) {later : List Nat} (h : later ≠ []) : 0 :: below < advance later := by
  cases later with
  | nil => exact absurd rfl h
  | cons i later => exact List.cons_lt_cons_iff.2 (.inl (Nat.succ_pos i))

theorem advance_lt_advance {first second : List Nat} (hfirst : first ≠ []) (hsecond : second ≠ [])
    (h : first < second) : advance first < advance second := by
  cases first with
  | nil => exact absurd rfl hfirst
  | cons i first =>
      cases second with
      | nil => exact absurd rfl hsecond
      | cons j second =>
          rw [List.cons_lt_cons_iff] at h
          exact List.cons_lt_cons_iff.2
            (h.imp Nat.succ_lt_succ fun ⟨hsame, hlt⟩ => ⟨congrArg (· + 1) hsame, hlt⟩)

theorem InPreorder.cons {node : Node} {rest : List Node} {inner others : List (List Nat × Node)}
    (hinner : InPreorder node.children inner) (hothers : InPreorder rest others) :
    InPreorder (node :: rest) (visitsOf node inner others) where
  increasing := by
    rw [visitsOf, List.pairwise_cons, List.pairwise_append, List.pairwise_map, List.pairwise_map,
      List.forall_mem_append, List.forall_mem_map, List.forall_mem_map]
    refine ⟨⟨?_, ?_⟩, ?_, ?_, ?_⟩
    · intro visit hmem
      rcases List.exists_cons_of_ne_nil (hinner.ne_nil visit hmem) with ⟨i, below, hvisit⟩
      rw [hvisit]
      exact List.cons_lt_cons_iff.2 (.inr ⟨rfl, List.nil_lt_cons i below⟩)
    · exact fun visit hmem => lt_advance [] (hothers.ne_nil visit hmem)
    · exact hinner.increasing.imp fun h => List.cons_lt_cons_iff.2 (.inr ⟨rfl, h⟩)
    · refine hothers.increasing.imp_of_mem ?_
      intro first second hfirst hsecond h
      exact advance_lt_advance (hothers.ne_nil first hfirst) (hothers.ne_nil second hsecond) h
    · rw [List.forall_mem_map]
      intro first _
      rw [List.forall_mem_map]
      exact fun second hsecond => lt_advance first.1 (hothers.ne_nil second hsecond)
  mem_iff := by
    intro address other
    rw [mem_visitsOf]
    constructor
    · rintro (⟨rfl, rfl⟩ | ⟨below, hmem, rfl⟩ | ⟨later, hmem, rfl⟩)
      · rfl
      · rw [nodeAt?_inside node rest (hinner.ne_nil _ hmem)]
        exact (hinner.mem_iff below other).1 hmem
      · rw [nodeAt?_advance]
        exact (hothers.mem_iff later other).1 hmem
    · intro h
      match address, h with
      | [0], h => exact .inl ⟨rfl, (Option.some.inj h).symm⟩
      | 0 :: i :: below, h => exact .inr (.inl ⟨i :: below, (hinner.mem_iff _ other).2 h, rfl⟩)
      | (i + 1) :: later, h =>
          have hlater : nodeAt? rest (i :: later) = some other :=
            (nodeAt?_advance node rest (i :: later)).symm.trans h
          exact .inr (.inr ⟨i :: later, (hothers.mem_iff _ other).2 hlater, rfl⟩)

/-- The lines that nodes are drawn with behind a margin are those of their addresses in order. -/
theorem exists_lines (nodes : List Node) :
    ∃ visits, InPreorder nodes visits ∧ visits.length = sizeAll nodes ∧ ∀ margin,
      drawAll margin (outlines nodes) =
        String.join (visits.map fun visit => margin ++ lineAt nodes visit.1 visit.2 ++ "\n") := by
  induction nodes using forest_induction with
  | nil => exact ⟨[], ⟨.nil, by simp [nodeAt?_none]⟩, rfl, fun _ => rfl⟩
  | cons node rest ihInner ihRest =>
      rcases ihInner with ⟨inner, hinner, hinnerSize, hinnerLines⟩
      rcases ihRest with ⟨others, hothers, hothersSize, hothersLines⟩
      refine ⟨visitsOf node inner others, hinner.cons hothers, ?_, ?_⟩
      · simp only [visitsOf, List.length_cons, List.length_append, List.length_map, sizeAll_cons]
        omega
      · intro margin
        have hinside :
            inner.map (fun visit => margin ++ lineAt (node :: rest) (0 :: visit.1) visit.2 ++ "\n") =
            inner.map fun visit =>
              margin ++ stem rest.isEmpty ++ lineAt node.children visit.1 visit.2 ++ "\n" :=
          List.map_congr_left fun visit hmem => by
            rw [lineAt_inside node rest (hinner.ne_nil visit hmem), ← String.append_assoc]
        rw [drawAll_cons, hinnerLines, hothersLines, visitsOf, List.map_cons, List.map_append, List.map_map,
          List.map_map, String.join_cons, String.join_append, lineAt_first]
        simp only [Function.comp_def, hinside, lineAt_advance]
        simp only [String.append_assoc]

theorem exists_treeView_lines (program : Program) :
    ∃ visits, InPreorder program.nodes visits ∧ visits.length = program.nodeCount ∧
      program.treeView =
        String.join (visits.map fun visit => lineAt program.nodes visit.1 visit.2 ++ "\n") := by
  rcases exists_lines program.nodes with ⟨visits, hvisits, hlength, hlines⟩
  refine ⟨visits, hvisits, hlength, ?_⟩
  simpa [Program.treeView] using hlines ""

end PassageMarkup
