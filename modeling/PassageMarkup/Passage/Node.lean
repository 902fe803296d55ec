/-
Module: PassageMarkup.Passage.Node
Layer: Passage
Purpose: The tree of a passage: text, literals, hooks, links and calls. A call that the catalog knows
  carries its arguments and the pattern they fit; any other call keeps its text. Either may have a hook
  of its own.
Imports: Catalog.Pattern
Main exports: Link, Call, Node, Program, same_iff, Node.children, Node.label, Node.summary, Program.nodeCount
-/
import PassageMarkup.Catalog.Pattern

namespace PassageMarkup

/-- A link with the text it shows and the passage it leads to. -/
structure Link where
  text : String
  target : String
deriving DecidableEq, Repr, Inhabited

/-- The link with given sides, both trimmed. -/
def Link.ofSides (text target : String) : Link :=
  ⟨Text.trim text, Text.trim target⟩

/-- The link that leads to the passage it names. -/
def Link.toSelf (text : String) : Link :=
  .ofSides text text

/-- Whether a link leads to the passage it names. -/
def Link.isSelf (link : Link) : Bool :=
  link.text == link.target

/-- A link as labels show it. -/
def Link.label (link : Link) : String :=
  if link.isSelf then link.text else link.text ++ " -> " ++ link.target

/-- A link as it is written in a passage, always with an arrow. -/
def Link.written (link : Link) : String :=
  "[[" ++ link.text ++ "->" ++ link.target ++ "]]"

/-- A call that the catalog knows, without its hook. -/
structure Call where
  name : String
  keyword : Option Keyword
  args : List Expression
  pattern : Pattern
deriving DecidableEq

/-- The arguments of a call as labels show them. -/
def Call.argumentLabel (call : Call) : String :=
  match call.keyword, call.args with
  | some keyword, [left, right] => left.label ++ " " ++ keyword.symbol ++ " " ++ right.label
  | _, args => ", ".intercalate (args.map Expression.label)

/-- A call as labels show it. -/
def Call.label (call : Call) : String :=
  if call.argumentLabel.isEmpty then "(" ++ call.name ++ ":)"
  else "(" ++ call.name ++ ": " ++ call.argumentLabel ++ ")"

/-- The two sides of a call joined by an arrow, as plain texts. -/
def Call.linkParts? (call : Call) : Option (String × String) :=
  match call.keyword, call.args with
  | some .arrow, [text, target] => some (text.plain, target.plain)
  | _, _ => none

/-- A node of a passage's tree. -/
inductive Node where
  | text (content : String)
  | literal (value : Literal)
  | hook (children : List Node)
  | link (link : Link)
  | call (call : Call) (hook : Option (List Node))
  | unknownCall (name raw : String) (hook : Option (List Node))
deriving Inhabited

/-- The tree of a passage. -/
structure Program where
  nodes : List Node
deriving Inhabited

/-! ### Equality -/

mutual

/-- Whether two nodes are the same tree. -/
def Node.same : Node → Node → Bool
  | .text content, .text other => content == other
  | .literal value, .literal other => value == other
  | .hook children, .hook others => sameAll children others
  | .link sides, .link others => sides == others
  | .call known attached, .call other hook => known == other && sameHook attached hook
  | .unknownCall name raw attached, .unknownCall other text hook =>
      name == other && raw == text && sameHook attached hook
  | _, _ => false

/-- Whether two lists of nodes are the same trees. -/
def sameAll : List Node → List Node → Bool
  | [], [] => true
  | node :: rest, other :: others => node.same other && sameAll rest others
  | _, _ => false

/-- Whether two hooks hold the same trees. -/
def sameHook : Option (List Node) → Option (List Node) → Bool
  | none, none => true
  | some children, some others => sameAll children others
  | _, _ => false

end

mutual

theorem same_iff : ∀ {node other : Node}, node.same other = true ↔ node = other
  | .text _, other => by cases other <;> simp [Node.same]
  | .literal _, other => by cases other <;> simp [Node.same]
  | .hook children, other => by cases other <;> simp [Node.same, @sameAll_iff children]
  | .link _, other => by cases other <;> simp [Node.same]
  | .call _ attached, other => by cases other <;> simp [Node.same, @sameHook_iff attached]
  | .unknownCall _ _ attached, other => by
      cases other <;> simp [Node.same, and_assoc, @sameHook_iff attached]

theorem sameAll_iff : ∀ {nodes others : List Node}, sameAll nodes others = true ↔ nodes = others
  | [], others => by cases others <;> simp [sameAll]
  | node :: rest, others => by
      cases others <;> simp [sameAll, @same_iff node, @sameAll_iff rest]

theorem sameHook_iff : ∀ {hook other : Option (List Node)}, sameHook hook other = true ↔ hook = other
  | none, other => by cases other <;> simp [sameHook]
  | some children, other => by cases other <;> simp [sameHook, @sameAll_iff children]

end

instance : DecidableEq Node := fun _ _ => decidable_of_iff _ same_iff

deriving instance DecidableEq for Program

/-! ### Labels -/

/-- The name of a node's type in trees. -/
def Node.typeName : Node → String
  | .text _ => "Text"
  | .literal value => value.typeName
  | .hook _ => "Hook"
  | .link _ => "Link"
  | .call _ _ => "Macro"
  | .unknownCall _ _ _ => "UnknownMacro"

/-- The hook that a node is or has. -/
def Node.hook? : Node → Option (List Node)
  | .hook children => some children
  | .call _ attached => attached
  | .unknownCall _ _ attached => attached
  | _ => none

/-- The nodes inside a node's hook. -/
def Node.children (node : Node) : List Node :=
  node.hook?.getD []

/-- A hook as labels show it. -/
def hookLabel (children : List Node) : String :=
  plural children.length "item"

/-- A hook in short. -/
def hookSummary (children : List Node) : String :=
  "Hook(" ++ toString children.length ++ " children)"

/-- The texts directly inside a hook, joined by spaces. -/
def hookText (children : List Node) : String :=
  " ".intercalate <| children.filterMap fun
    | .text content => some content
    | _ => none

/-- A node as labels show it. -/
def Node.label : Node → String
  | .text content => content
  | .literal value => value.label
  | .hook children => hookLabel children
  | .link target => target.label
  | .call known _ => known.label
  | .unknownCall _ raw _ => raw

/-- A node in short. -/
def Node.summary : Node → String
  | .text content => "Text(" ++ toString content.length ++ " chars)"
  | .literal value => value.label
  | .hook children => hookSummary children
  | .link target => target.written
  | .call known _ => "Macro(" ++ known.name ++ ", " ++ toString known.args.length ++ " args)"
  | .unknownCall name _ _ => "UnknownMacro(" ++ name ++ ")"

mutual

/-- Number of nodes in a node's tree, itself included. -/
def Node.size : Node → Nat
  | .hook children => 1 + sizeAll children
  | .call _ attached => 1 + sizeHook attached
  | .unknownCall _ _ attached => 1 + sizeHook attached
  | .text _ => 1
  | .literal _ => 1
  | .link _ => 1

/-- Number of nodes in the trees of a list. -/
def sizeAll : List Node → Nat
  | [] => 0
  | node :: rest => node.size + sizeAll rest

/-- Number of nodes in the trees of a hook. -/
def sizeHook : Option (List Node) → Nat
  | none => 0
  | some children => sizeAll children

end

/-- Number of nodes in a program. -/
def Program.nodeCount (program : Program) : Nat :=
  sizeAll program.nodes

/-- A program as labels show it. -/
def Program.label (program : Program) : String :=
  toString program.nodes.length ++ " expressions"

/-- A program in short. -/
def Program.summary (program : Program) : String :=
  "Program(" ++ program.label ++ ")"

end PassageMarkup
