/-
Module: PassageMarkup.Report.TreeView
Layer: Report
Purpose: The tree of a passage drawn with one line to a node. What is drawn is the outline of the tree:
  each node with its type and its label, cut to thirty characters, and the nodes of its hook below it.
Imports: Passage.Node
Main exports: Outline, shorten, Node.entry, Node.outline, Outline.draw, Program.treeView
-/
import PassageMarkup.Passage.Node

namespace PassageMarkup

/-- A tree of node types and the labels that are shown. -/
inductive Outline where
  | entry (typeName label : String) (children : List Outline)
deriving Inhabited

/-- Number of characters of a label that are shown. -/
def labelLength : Nat := 30

/-- A label cut to the length that is shown. -/
def shorten (label : String) : String :=
  if labelLength < label.length then String.ofList (label.toList.take labelLength) ++ "..."
  else label

/-- The entry of a node above the outlines of its children: its type and its label. -/
def Node.entry (node : Node) (children : List Outline) : Outline :=
  .entry node.typeName (shorten node.label) children

mutual

/-- The outline of a node. -/
def Node.outline : Node → Outline
  | .text content => (Node.text content).entry []
  | .literal value => (Node.literal value).entry []
  | .link sides => (Node.link sides).entry []
  | .hook children => (Node.hook children).entry (outlines children)
  | .call known attached => (Node.call known attached).entry (hookOutlines attached)
  | .unknownCall name raw attached =>
      (Node.unknownCall name raw attached).entry (hookOutlines attached)

/-- The outlines of nodes in order. -/
def outlines : List Node → List Outline
  | [] => []
  | node :: rest => node.outline :: outlines rest

/-- The outlines of the nodes of an attached hook. -/
def hookOutlines : Option (List Node) → List Outline
  | none => []
  | some children => outlines children

end

mutual

/-- Draw an outline behind a margin; the last one among its siblings has a corner. -/
def Outline.draw (margin : String) (last : Bool) : Outline → String
  | .entry typeName label children =>
      margin ++ (if last then "└─ " else "├─ ") ++ typeName ++ ": " ++ label ++ "\n" ++
        drawAll (margin ++ (if last then "  " else "│ ")) children

/-- Draw siblings behind their margin. -/
def drawAll (margin : String) : List Outline → String
  | [] => ""
  | outline :: rest => outline.draw margin rest.isEmpty ++ drawAll margin rest

end

/-- The drawing of a program. -/
def Program.treeView (program : Program) : String :=
  drawAll "" (outlines program.nodes)

end PassageMarkup
