/-
Module: PassageMarkup.Report.Data
Layer: Report
Purpose: Serialized data: texts, whole and real numbers, truth values, lists, and records with their
  fields in order. A tree is serialized to data first, and the data is then written in a text format.
Imports: Passage.Node, Token.Basic
Main exports: Data, Literal.toData, Expression.toData, Pattern.toData, Node.toData, Program.toData,
  Token.toData
-/
import PassageMarkup.Passage.Node
import PassageMarkup.Token.Basic

namespace PassageMarkup

/-- A piece of serialized data. -/
inductive Data where
  | boolean (value : Bool)
  | integer (value : Nat)
  | real (value : Number.Binary64)
  | text (value : String)
  | list (items : List Data)
  | record (fields : List (String × Data))
deriving Inhabited

/-- A record that is tagged with a type, before its other fields. -/
def Data.typed (typeName : String) (fields : List (String × Data)) : Data :=
  .record (("type", .text typeName) :: fields)

/-- The fields of a literal besides its type. -/
def Literal.fields : Literal → List (String × Data)
  | .string content => [("value", .text content)]
  | .number content => [("value", .real content)]
  | .boolean content => [("value", .boolean content)]
  | .time spelling => [("value", .text spelling)]
  | .variable name => [("name", .text name)]

/-- A literal as data. -/
def Literal.toData (literal : Literal) : Data :=
  .typed literal.typeName literal.fields

/-- An expression as data. -/
def Expression.toData : Expression → Data
  | .value literal => literal.toData
  | .arithmetic operator left right =>
      .typed "Arithmetic"
        [("operator", .text operator.symbol), ("left", left.toData), ("right", right.toData)]
  | .comparison operator left right =>
      .typed "Comparison"
        [("operator", .text operator.symbol), ("left", left.toData), ("right", right.toData)]

/-- A category as data. -/
def Category.toData (category : Category) : Data :=
  .text category.tag

/-- A pattern as data. -/
def Pattern.toData : Pattern → Data
  | .keyword word left right =>
      .record [("shape", .text "keyword"), ("keyword", .text word.symbol), ("left", left.toData),
        ("right", right.toData)]
  | .positional categories =>
      .record [("shape", .text "positional"), ("args", .list (categories.map Category.toData))]
  | .variadic min category =>
      .record [("shape", .text "variadic"), ("min", .integer min), ("arg", category.toData)]

/-- The field of an optional value; there is none where the value is absent. -/
def optionalField (name : String) : Option Data → List (String × Data)
  | none => []
  | some value => [(name, value)]

/-- The fields of a known call besides its type and its hook. -/
def Call.fields (call : Call) : List (String × Data) :=
  ("name", .text call.name) ::
    optionalField "keyword" (call.keyword.map fun keyword => .text keyword.symbol) ++
    [("args", .list (call.args.map Expression.toData)), ("pattern", call.pattern.toData)]

mutual

/-- A node as data. -/
def Node.toData : Node → Data
  | .text content => .typed "Text" [("content", .text content)]
  | .literal value => value.toData
  | .hook children => .typed "Hook" [("children", .list (nodesToData children))]
  | .link sides => .typed "Link" [("text", .text sides.text), ("target", .text sides.target)]
  | .call known attached => .typed "Macro" (known.fields ++ hookFields attached)
  | .unknownCall name raw attached =>
      .typed "UnknownMacro" ([("name", .text name), ("raw", .text raw)] ++ hookFields attached)

/-- Nodes as data, in order. -/
def nodesToData : List Node → List Data
  | [] => []
  | node :: rest => node.toData :: nodesToData rest

/-- The field of an attached hook. -/
def hookFields : Option (List Node) → List (String × Data)
  | none => []
  | some children => [("hook", .typed "Hook" [("children", .list (nodesToData children))])]

end

/-- A program as data. -/
def Program.toData (program : Program) : Data :=
  .typed "Program" [("expressions", .list (nodesToData program.nodes))]

/-- A token as data: what it is, and where. -/
def Token.toData (token : Token) : Data :=
  .list
    [.record [("kind", .text token.kind.tag), ("text", .text token.text)],
     .record [("start", .integer token.start), ("end", .integer token.stop)]]

end PassageMarkup
