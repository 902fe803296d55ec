/-
Module: PassageMarkup.Proofs.Serialization
Layer: Proofs
Purpose: Serialized trees and how they are read back. Records are read by the names of their fields, and which
  record it is by the field named `type`; so a reader sees of data what JSON keeps of it, where fields have no
  order and a number that is not finite is null. Reading gives back every program whose numbers are finite,
  and at every place of a program the data is that of the part there, under the name of its type.
Imports: Mathlib.Data.List.Forall2, Proofs.LabelWords, Proofs.TreeLines, Report.Data
Main exports: Data.SameJson, Data.get?, Program.ofData?, Program.HasFiniteNumbers, Program.ofData?_eq_some,
  Data.at?, Part, Program.Holds, Program.Holds.at?_eq_some, serialization_loses_nothing
-/
import Mathlib.Data.List.Forall2
import PassageMarkup.Proofs.LabelWords
import PassageMarkup.Proofs.TreeLines
import PassageMarkup.Report.Data

namespace PassageMarkup

open Number

/-! ### What JSON keeps of data -/

namespace Data

/-- Two pieces of data that are one value in JSON: the fields of a record are known by their names, and all
numbers that are not finite are null. -/
inductive SameJson : Data → Data → Prop where
  | boolean (value : Bool) : SameJson (.boolean value) (.boolean value)
  | integer (value : Nat) : SameJson (.integer value) (.integer value)
  | real (value : Binary64) : SameJson (.real value) (.real value)
  | null {value other : Binary64} (hvalue : value.isFinite = false) (hother : other.isFinite = false) :
      SameJson (.real value) (.real other)
  | text (value : String) : SameJson (.text value) (.text value)
  | list {items others : List Data} (hitems : List.Forall₂ SameJson items others) :
      SameJson (.list items) (.list others)
  | record {fields others : List (String × Data)}
      (hfields : ∀ name, Option.Rel SameJson (fields.lookup name) (others.lookup name)) :
      SameJson (.record fields) (.record others)

mutual

theorem SameJson.refl : ∀ data : Data, data.SameJson data
  | .boolean value => .boolean value
  | .integer value => .integer value
  | .real value => .real value
  | .text value => .text value
  | .list items => .list (sameJson_items items)
  | .record fields => .record (sameJson_lookup fields)

theorem sameJson_items : ∀ items : List Data, List.Forall₂ SameJson items items
  | [] => .nil
  | item :: rest => .cons (SameJson.refl item) (sameJson_items rest)

theorem sameJson_lookup : ∀ (fields : List (String × Data)) (name : String),
    Option.Rel SameJson (fields.lookup name) (fields.lookup name)
  | [], _ => .none
  | (key, value) :: rest, name => by
      rw [List.lookup_cons]
      split
      · exact .some (SameJson.refl value)
      · exact sameJson_lookup rest name

end

/-! ### Reading data -/

/-- The value of a field of a record. -/
def field? (name : String) : Data → Option Data
  | .record fields => fields.lookup name
  | _ => none

/-- The truth value that data is. -/
def boolean? : Data → Option Bool
  | .boolean value => some value
  | _ => none

/-- The whole number that data is. -/
def integer? : Data → Option Nat
  | .integer value => some value
  | _ => none

/-- The number that data is; what is not finite is no number. -/
def finite? : Data → Option Binary64
  | .real value => if value.isFinite then some value else none
  | _ => none

/-- The text that data is. -/
def text? : Data → Option String
  | .text value => some value
  | _ => none

/-- Read the value of a field. -/
def get? {α : Type} (read : Data → Option α) (name : String) (data : Data) : Option α :=
  (data.field? name).bind read

theorem sizeOf_lookup {name : String} {value : Data} : ∀ {fields : List (String × Data)},
    fields.lookup name = some value → sizeOf value < sizeOf fields
  | [], h => by cases h
  | (key, kept) :: rest, h => by
      rw [List.lookup_cons] at h
      split at h
      · cases h
        simp only [List.cons.sizeOf_spec, Prod.mk.sizeOf_spec]
        omega
      · have := sizeOf_lookup h
        simp only [List.cons.sizeOf_spec]
        omega

theorem sizeOf_field? {name : String} {data value : Data} (h : data.field? name = some value) :
    sizeOf value < sizeOf data := by
  cases data with
  | record fields =>
      have := sizeOf_lookup h
      simp only [record.sizeOf_spec]
      omega
  | _ => cases h

/-- The value of a field, as a smaller piece of data. -/
def part? (name : String) (data : Data) : Option { value : Data // sizeOf value < sizeOf data } :=
  (data.field? name).attachWith _ fun _ => sizeOf_field?

/-- The items of a field that is a list, together smaller than the record. -/
def parts? (name : String) (data : Data) : Option { items : List Data // sizeOf items < sizeOf data } :=
  match data.part? name with
  | some ⟨.list items, h⟩ => some ⟨items, by simp only [list.sizeOf_spec] at h; omega⟩
  | _ => none

/-! Reading does not tell apart what is one value in JSON. -/

section
variable {data other : Data} (h : data.SameJson other)
include h

theorem SameJson.rel_field? (name : String) :
    Option.Rel SameJson (data.field? name) (other.field? name) := by
  cases h with
  | record hfields => exact hfields name
  | _ => exact .none

theorem SameJson.boolean?_eq : other.boolean? = data.boolean? := by
  cases h <;> rfl

theorem SameJson.integer?_eq : other.integer? = data.integer? := by
  cases h <;> rfl

theorem SameJson.text?_eq : other.text? = data.text? := by
  cases h <;> rfl

theorem SameJson.finite?_eq : other.finite? = data.finite? := by
  cases h with
  | null hvalue hother => simp [finite?, hvalue, hother]
  | _ => rfl

theorem SameJson.get?_eq {α : Type} {read : Data → Option α}
    (hread : ∀ {value copy : Data}, value.SameJson copy → read copy = read value) (name : String) :
    other.get? read name = data.get? read name := by
  have hfield := h.rel_field? name
  rw [get?, get?]
  generalize data.field? name = value, other.field? name = copy at hfield
  cases hfield with
  | none => rfl
  | some hsame => exact hread hsame

theorem SameJson.part?_eq_none {name : String} (hfield : data.field? name = none) :
    other.part? name = none := by
  have hrel := h.rel_field? name
  rw [hfield] at hrel
  generalize hcopy : other.field? name = copy at hrel
  cases hrel
  simp [part?, hcopy]

theorem SameJson.exists_part? (name : String) {value : Data} (hfield : data.field? name = some value) :
    ∃ copy, ∃ hsize, other.part? name = some ⟨copy, hsize⟩ ∧ value.SameJson copy := by
  have hrel := h.rel_field? name
  rw [hfield] at hrel
  generalize hcopy : other.field? name = copy at hrel
  cases hrel with
  | some hsame => exact ⟨_, sizeOf_field? hcopy, by simp [part?, hcopy], hsame⟩

theorem SameJson.exists_parts? (name : String) {items : List Data}
    (hfield : data.field? name = some (.list items)) :
    ∃ copies, ∃ hsize, other.parts? name = some ⟨copies, hsize⟩ ∧ List.Forall₂ SameJson items copies := by
  rcases h.exists_part? name hfield with ⟨_, hsize, hpart, hsame⟩
  cases hsame with
  | list hitems => exact ⟨_, _, by rw [parts?, hpart], hitems⟩

end

end Data

/-- A list is read back when each of its values is. -/
theorem mapM_eq_some {α : Type} {write : α → Data} {read : Data → Option α} :
    ∀ {values : List α} {items : List Data},
      (∀ value ∈ values, ∀ {item}, (write value).SameJson item → read item = some value) →
        List.Forall₂ Data.SameJson (values.map write) items → items.mapM read = some values
  | [], _, _, .nil => rfl
  | value :: values, _, hread, .cons hitem hitems => by
      have hvalue := hread value List.mem_cons_self hitem
      have hvalues := mapM_eq_some (fun other hother => hread other (List.mem_cons_of_mem _ hother)) hitems
      simp [hvalue, hvalues]

/-! ### Reading the parts of a call -/

open Data

/-- Read a literal. -/
def Literal.ofData? (data : Data) : Option Literal := do
  match ← data.get? text? "type" with
  | "String" => return .string (← data.get? text? "value")
  | "Number" => return .number (← data.get? finite? "value")
  | "Boolean" => return .boolean (← data.get? boolean? "value")
  | "Time" => return .time (← data.get? text? "value")
  | "Variable" => return .variable (← data.get? text? "name")
  | _ => none

/-- Read which operation it is, before its two sides are read. -/
def operation? (data : Data) : Option (Expression → Expression → Expression) := do
  match ← data.get? text? "type" with
  | "Arithmetic" => return .arithmetic (← ArithmeticOperator.ofSymbol? (← data.get? text? "operator"))
  | "Comparison" => return .comparison (← ComparisonOperator.ofSymbol? (← data.get? text? "operator"))
  | _ => none

/-- Read an expression. -/
def Expression.ofData? (data : Data) : Option Expression :=
  match operation? data with
  | none => (Literal.ofData? data).map .value
  | some operation => do
      let ⟨left, _⟩ ← data.part? "left"
      let ⟨right, _⟩ ← data.part? "right"
      return operation (← Expression.ofData? left) (← Expression.ofData? right)
termination_by sizeOf data

/-- Read a category. -/
def Category.ofData? (data : Data) : Option Category :=
  data.text?.bind Category.ofTag?

/-- Read a pattern. -/
def Pattern.ofData? (data : Data) : Option Pattern := do
  match ← data.get? text? "shape" with
  | "keyword" =>
      return .keyword (← Keyword.ofSymbol? (← data.get? text? "keyword"))
        (← data.get? Category.ofData? "left") (← data.get? Category.ofData? "right")
  | "positional" => return .positional (← (← data.parts? "args").val.mapM Category.ofData?)
  | "variadic" => return .variadic (← data.get? integer? "min") (← data.get? Category.ofData? "arg")
  | _ => none

/-- Read a known call, without its hook. -/
def Call.ofData? (data : Data) : Option Call := do
  return {
    name := ← data.get? text? "name"
    keyword := (data.get? text? "keyword").bind Keyword.ofSymbol?
    args := ← (← data.parts? "args").val.mapM Expression.ofData?
    pattern := ← Pattern.ofData? (← data.part? "pattern").val }

/-! ### Reading nodes -/

mutual

/-- Read a node. -/
def Node.ofData? (data : Data) : Option Node := do
  match ← data.get? text? "type" with
  | "Text" => return .text (← data.get? text? "content")
  | "Hook" =>
      let ⟨children, _⟩ ← data.parts? "children"
      return .hook (← nodesOfData? children)
  | "Link" => return .link ⟨← data.get? text? "text", ← data.get? text? "target"⟩
  | "Macro" => return .call (← Call.ofData? data) (← attachedOfData? data)
  | "UnknownMacro" =>
      return .unknownCall (← data.get? text? "name") (← data.get? text? "raw") (← attachedOfData? data)
  | _ => return .literal (← Literal.ofData? data)
termination_by (sizeOf data, 1)

/-- Read the hook of a call; where the field is absent, there is no hook. -/
def attachedOfData? (data : Data) : Option (Option (List Node)) :=
  match data.part? "hook" with
  | none => some none
  | some ⟨hook, _⟩ =>
      match Node.ofData? hook with
      | some (.hook children) => some (some children)
      | _ => none
termination_by (sizeOf data, 0)

/-- Read nodes, in order. -/
def nodesOfData? : List Data → Option (List Node)
  | [] => some []
  | item :: rest => do return (← Node.ofData? item) :: (← nodesOfData? rest)
termination_by items => (sizeOf items, 0)

end

/-- Read a program. -/
def Program.ofData? (data : Data) : Option Program := do
  match ← data.get? text? "type" with
  | "Program" => return ⟨← nodesOfData? (← data.parts? "expressions").val⟩
  | _ => none

/-! ### Numbers -/

mutual

/-- The literals of a node, from left to right. -/
def Node.literals : Node → List Literal
  | .literal value => [value]
  | .hook children => literalsOf children
  | .call known attached => known.args.flatMap Expression.literals ++ literalsOfHook attached
  | .unknownCall _ _ attached => literalsOfHook attached
  | .text _ | .link _ => []

/-- The literals of nodes, from left to right. -/
def literalsOf : List Node → List Literal
  | [] => []
  | node :: rest => node.literals ++ literalsOf rest

/-- The literals of a hook, from left to right. -/
def literalsOfHook : Option (List Node) → List Literal
  | none => []
  | some children => literalsOf children

end

/-- Whether a literal is a finite number, or no number at all. -/
def Literal.isFinite : Literal → Bool
  | .number value => value.isFinite
  | _ => true

/-- All numbers among some literals are finite. -/
def FiniteNumbers (literals : List Literal) : Prop :=
  ∀ literal ∈ literals, literal.isFinite = true

instance (literals : List Literal) : Decidable (FiniteNumbers literals) :=
  inferInstanceAs (Decidable (∀ literal ∈ literals, literal.isFinite = true))

theorem FiniteNumbers.mono {literals others : List Literal} (h : FiniteNumbers literals)
    (hsub : others ⊆ literals) : FiniteNumbers others := by
  intro literal hliteral
  apply h literal
  exact hsub hliteral

/-- All numbers of a program are finite. -/
def Program.HasFiniteNumbers (program : Program) : Prop :=
  FiniteNumbers (literalsOf program.nodes)

instance (program : Program) : Decidable program.HasFiniteNumbers :=
  inferInstanceAs (Decidable (FiniteNumbers (literalsOf program.nodes)))

theorem literalsOf_children_subset (node : Node) : literalsOf node.children ⊆ node.literals := by
  cases node with
  | text | literal | link => simp [Node.children, Node.hook?, literalsOf]
  | hook children => simp [Node.children, Node.hook?, Node.literals]
  | call known attached | unknownCall name raw attached =>
      cases attached <;> simp [Node.children, Node.hook?, Node.literals, literalsOfHook, literalsOf]

/-! ### Reading back -/

section
variable {data : Data}

theorem Literal.ofData?_eq_some {literal : Literal} (hfinite : FiniteNumbers [literal])
    (h : literal.toData.SameJson data) : Literal.ofData? data = some literal := by
  simp only [Literal.ofData?, h.get?_eq SameJson.text?_eq, h.get?_eq SameJson.finite?_eq,
    h.get?_eq SameJson.boolean?_eq]
  cases literal with
  | number value =>
      have hvalue : value.isFinite = true := hfinite _ List.mem_cons_self
      have hread : finite? (.real value) = some value := by simp [finite?, hvalue]
      change (finite? (.real value)).bind (some <| Literal.number ·) = some (.number value)
      rw [hread]
      rfl
  | _ => rfl

/-- The type of a literal is the type of no operation. -/
theorem operation?_literal {literal : Literal} (h : literal.toData.SameJson data) :
    operation? data = none := by
  simp only [operation?, h.get?_eq SameJson.text?_eq]
  cases literal <;> rfl

/-- An operation is read from its sides. -/
theorem Expression.ofData?_operation {operation : Expression → Expression → Expression}
    {left right : Expression} {first second : Data} {hfirst : sizeOf first < sizeOf data}
    {hsecond : sizeOf second < sizeOf data} (hoperation : operation? data = some operation)
    (hleft : data.part? "left" = some ⟨first, hfirst⟩) (hright : data.part? "right" = some ⟨second, hsecond⟩)
    (hreadLeft : Expression.ofData? first = some left)
    (hreadRight : Expression.ofData? second = some right) :
    Expression.ofData? data = some (operation left right) := by
  rw [Expression.ofData?, hoperation]
  simp [hleft, hright, hreadLeft, hreadRight]

theorem Expression.ofData?_eq_some {expression : Expression}
    (hfinite : FiniteNumbers expression.literals) (h : expression.toData.SameJson data) :
    Expression.ofData? data = some expression := by
  induction expression generalizing data with
  | value literal =>
      rw [Expression.ofData?, operation?_literal h]
      simp [Literal.ofData?_eq_some hfinite h]
  | arithmetic operator left right ihLeft ihRight
  | comparison operator left right ihLeft ihRight =>
      rcases h.exists_part? "left" rfl with ⟨first, _, hfirst, hleft⟩
      rcases h.exists_part? "right" rfl with ⟨second, _, hsecond, hright⟩
      refine Expression.ofData?_operation ?_ hfirst hsecond ?_ ?_
      · simp only [operation?, h.get?_eq SameJson.text?_eq]
        cases operator <;> rfl
      · exact ihLeft (hfinite.mono (List.subset_append_left ..)) hleft
      · exact ihRight (hfinite.mono (List.subset_append_right ..)) hright

theorem Category.ofData?_eq {other : Data} (h : data.SameJson other) :
    Category.ofData? other = Category.ofData? data := by
  rw [Category.ofData?, Category.ofData?, h.text?_eq]

theorem Category.ofData?_eq_some {category : Category} (h : category.toData.SameJson data) :
    Category.ofData? data = some category := by
  rw [Category.ofData?_eq h]
  cases category <;> rfl

theorem Pattern.ofData?_eq_some {pattern : Pattern} (h : pattern.toData.SameJson data) :
    Pattern.ofData? data = some pattern := by
  simp only [Pattern.ofData?, h.get?_eq SameJson.text?_eq, h.get?_eq SameJson.integer?_eq,
    h.get?_eq Category.ofData?_eq]
  cases pattern with
  | keyword word left right => cases word <;> cases left <;> cases right <;> rfl
  | variadic min category => cases category <;> rfl
  | positional categories =>
      rcases h.exists_parts? "args" rfl with ⟨items, _, hitems, hsame⟩
      have hread : items.mapM Category.ofData? = some categories := by
        apply mapM_eq_some _ hsame
        intro category _ item hitem
        exact Category.ofData?_eq_some hitem
      have hshape : (Pattern.positional categories).toData.get? text? "shape" = some "positional" := rfl
      simp [hshape, hitems, hread]

/-! The fields of a call behind its keyword are found whether the keyword is there or not. -/

theorem Call.field?_args (call : Call) (attached : Option (List Node)) :
    (Node.call call attached).toData.field? "args" = some (.list (call.args.map Expression.toData)) := by
  obtain ⟨name, keyword, args, pattern⟩ := call
  cases keyword <;> rfl

theorem Call.field?_pattern (call : Call) (attached : Option (List Node)) :
    (Node.call call attached).toData.field? "pattern" = some call.pattern.toData := by
  obtain ⟨name, keyword, args, pattern⟩ := call
  cases keyword <;> rfl

theorem Call.field?_hook (call : Call) (attached : Option (List Node)) :
    (Node.call call attached).toData.field? "hook" = (hookFields attached).lookup "hook" := by
  obtain ⟨name, keyword, args, pattern⟩ := call
  cases keyword <;> rfl

theorem Call.get?_keyword (call : Call) (attached : Option (List Node)) :
    ((Node.call call attached).toData.get? text? "keyword").bind Keyword.ofSymbol? = call.keyword := by
  obtain ⟨name, keyword, args, pattern⟩ := call
  cases keyword with
  | none => cases attached <;> rfl
  | some word => cases word <;> rfl

theorem Call.ofData?_eq_some {call : Call} {attached : Option (List Node)}
    (hfinite : FiniteNumbers (call.args.flatMap Expression.literals))
    (h : (Node.call call attached).toData.SameJson data) : Call.ofData? data = some call := by
  have hname : data.get? text? "name" = some call.name := h.get?_eq SameJson.text?_eq "name"
  have hkeyword : (data.get? text? "keyword").bind Keyword.ofSymbol? = call.keyword := by
    rw [h.get?_eq SameJson.text?_eq, call.get?_keyword]
  rcases h.exists_parts? "args" (call.field?_args attached) with ⟨items, _, hitems, hsame⟩
  rcases h.exists_part? "pattern" (call.field?_pattern attached) with ⟨copy, _, hcopy, hpattern⟩
  have hargs : items.mapM Expression.ofData? = some call.args := by
    apply mapM_eq_some _ hsame
    intro arg harg item hitem
    apply Expression.ofData?_eq_some _ hitem
    exact hfinite.mono fun literal hliteral => List.mem_flatMap.2 ⟨arg, harg, hliteral⟩
  simp [Call.ofData?, hname, hkeyword, hitems, hcopy, hargs, Pattern.ofData?_eq_some hpattern]

/-- Nodes that are read back from whatever is their data in JSON. -/
def ReadBack (nodes : List Node) : Prop :=
  ∀ {items : List Data}, List.Forall₂ SameJson (nodesToData nodes) items → nodesOfData? items = some nodes

theorem Node.field?_type (node : Node) : node.toData.field? "type" = some (.text node.typeName) := by
  cases node <;> rfl

theorem Node.ofData?_hook {children : List Node} (hchildren : ReadBack children)
    (h : (Node.hook children).toData.SameJson data) : Node.ofData? data = some (.hook children) := by
  have htype : data.get? text? "type" = some "Hook" := h.get?_eq SameJson.text?_eq "type"
  rcases h.exists_parts? "children" rfl with ⟨items, _, hitems, hsame⟩
  rw [Node.ofData?, htype]
  simp [hitems, hchildren hsame]

/-- The hook of a call is read back, and so is that there is none. -/
theorem attachedOfData?_eq_some {node : Node} {attached : Option (List Node)}
    (hchildren : ReadBack (attached.getD []))
    (hfield : node.toData.field? "hook" = (hookFields attached).lookup "hook")
    (h : node.toData.SameJson data) : attachedOfData? data = some attached := by
  cases attached with
  | none => rw [attachedOfData?, h.part?_eq_none hfield]
  | some children =>
      rcases h.exists_part? "hook" hfield with ⟨hook, _, hhook, hsame⟩
      rw [attachedOfData?, hhook]
      simp [Node.ofData?_hook hchildren hsame]

/-- A node is read back when the nodes inside it are. -/
theorem Node.ofData?_eq_some {node : Node} (hfinite : FiniteNumbers node.literals)
    (hchildren : ReadBack node.children) (h : node.toData.SameJson data) :
    Node.ofData? data = some node := by
  have htype : data.get? text? "type" = some node.typeName := by
    rw [h.get?_eq SameJson.text?_eq, Data.get?, node.field?_type]
    rfl
  cases node with
  | text content | link sides =>
      rw [Node.ofData?]
      simp only [h.get?_eq SameJson.text?_eq]
      rfl
  | literal value =>
      have hvalue := Literal.ofData?_eq_some hfinite h
      -- None of the five types of literals is the type of another node.
      rw [Node.ofData?, htype]
      cases value <;> simp [Node.typeName, Literal.typeName, hvalue]
  | hook children => exact Node.ofData?_hook hchildren h
  | call known attached =>
      have hknown : Call.ofData? data = some known := by
        apply Call.ofData?_eq_some _ h
        exact hfinite.mono (List.subset_append_left ..)
      have hattached : attachedOfData? data = some attached :=
        attachedOfData?_eq_some hchildren (known.field?_hook attached) h
      rw [Node.ofData?, htype]
      simp [Node.typeName, hknown, hattached]
  | unknownCall name raw attached =>
      have hattached : attachedOfData? data = some attached := attachedOfData?_eq_some hchildren rfl h
      rw [Node.ofData?]
      simp only [h.get?_eq SameJson.text?_eq, hattached]
      rfl

end

/-- Nodes with finite numbers are read back. -/
theorem readBack (nodes : List Node) : FiniteNumbers (literalsOf nodes) → ReadBack nodes := by
  induction nodes using forest_induction with
  | nil =>
      intro _ items hitems
      cases hitems
      rw [nodesOfData?]
  | cons node rest ihChildren ihRest =>
      intro hfinite items hitems
      have hnode : FiniteNumbers node.literals := hfinite.mono (List.subset_append_left ..)
      have hrest : FiniteNumbers (literalsOf rest) := hfinite.mono (List.subset_append_right ..)
      have hchildren : ReadBack node.children := ihChildren (hnode.mono (literalsOf_children_subset node))
      cases hitems with
      | cons hitem hitems =>
          simp [nodesOfData?, Node.ofData?_eq_some hnode hchildren hitem, ihRest hrest hitems]

/-- A program with finite numbers is read back from whatever is its data in JSON. -/
theorem Program.ofData?_eq_some {program : Program} {data : Data} (hfinite : program.HasFiniteNumbers)
    (h : program.toData.SameJson data) : Program.ofData? data = some program := by
  have htype : data.get? text? "type" = some "Program" := h.get?_eq SameJson.text?_eq "type"
  rcases h.exists_parts? "expressions" rfl with ⟨items, _, hitems, hsame⟩
  simp [Program.ofData?, htype, hitems, readBack program.nodes hfinite hsame]

/-! ### Places -/

/-- One step down into data: to a field of a record, or to an item of a list. -/
inductive Descent where
  | field (name : String)
  | item (index : Nat)
deriving DecidableEq, Repr

/-- The data one step down. -/
def Data.down? : Data → Descent → Option Data
  | data, .field name => data.field? name
  | .list items, .item index => items[index]?
  | _, .item _ => none

/-- The data at a place. -/
def Data.at? (data : Data) (place : List Descent) : Option Data :=
  place.foldlM Data.down? data

/-- A part of a program that has a type of its own. -/
inductive Part where
  | ofProgram (program : Program)
  | ofNode (node : Node)
  | ofExpression (expression : Expression)
  | ofLiteral (literal : Literal)

/-- The name of a part's type. -/
def Part.typeName : Part → String
  | .ofProgram _ => "Program"
  | .ofNode node => node.typeName
  | .ofExpression expression => expression.typeName
  | .ofLiteral literal => literal.typeName

/-- A part as data. -/
def Part.toData : Part → Data
  | .ofProgram program => program.toData
  | .ofNode node => node.toData
  | .ofExpression expression => expression.toData
  | .ofLiteral literal => literal.toData

/-- The parts that stand in a list under a field, each with its place. -/
def Part.listed {α : Type} (name : String) (part : α → Part) (values : List α) : List (List Descent × Part) :=
  values.zipIdx.map fun (value, index) => ([.field name, .item index], part value)

/-- The hook of a call, with its place. -/
def Part.hooked : Option (List Node) → List (List Descent × Part)
  | none => []
  | some children => [([.field "hook"], .ofNode (.hook children))]

/-- The parts directly inside a part, each with its place there. A literal that is a node or an expression by
itself has no place of its own. -/
def Part.inside : Part → List (List Descent × Part)
  | .ofProgram program => listed "expressions" .ofNode program.nodes
  | .ofNode (.literal literal) => [([], .ofLiteral literal)]
  | .ofNode (.hook children) => listed "children" .ofNode children
  | .ofNode (.call known attached) => listed "args" .ofExpression known.args ++ hooked attached
  | .ofNode (.unknownCall _ _ attached) => hooked attached
  | .ofExpression (.value literal) => [([], .ofLiteral literal)]
  | .ofExpression (.arithmetic _ left right) | .ofExpression (.comparison _ left right) =>
      [([.field "left"], .ofExpression left), ([.field "right"], .ofExpression right)]
  | .ofNode (.text _) | .ofNode (.link _) | .ofLiteral _ => []

/-- The places of a program and the parts that stand there, at any depth. -/
inductive Program.Holds (program : Program) : List Descent → Part → Prop where
  | whole : Holds program [] (.ofProgram program)
  | inside {place below : List Descent} {part inner : Part} (h : Holds program place part)
      (hinner : (below, inner) ∈ part.inside) : Holds program (place ++ below) inner

theorem nodesToData_eq_map (nodes : List Node) : nodesToData nodes = nodes.map Node.toData := by
  induction nodes with
  | nil => rw [nodesToData, List.map_nil]
  | cons node rest ih => rw [nodesToData, List.map_cons, ih]

theorem Part.at?_listed {α : Type} {name : String} {part : α → Part} {values : List α} {data : Data}
    {below : List Descent} {inner : Part}
    (hdata : data.field? name = some (.list (values.map fun value => (part value).toData)))
    (hinner : (below, inner) ∈ Part.listed name part values) : data.at? below = some inner.toData := by
  simp only [Part.listed, List.mem_map, Prod.mk.injEq, Prod.exists] at hinner
  rcases hinner with ⟨value, index, hvalue, rfl, rfl⟩
  have hindex : values[index]? = some value := List.mem_zipIdx_iff_getElem?.1 hvalue
  simp [Data.at?, Data.down?, hdata, hindex]

theorem Part.at?_nodes {name : String} {nodes : List Node} {data : Data} {below : List Descent} {inner : Part}
    (hdata : data.field? name = some (.list (nodesToData nodes)))
    (hinner : (below, inner) ∈ Part.listed name .ofNode nodes) : data.at? below = some inner.toData := by
  rw [nodesToData_eq_map] at hdata
  exact Part.at?_listed hdata hinner

theorem Part.at?_hooked {attached : Option (List Node)} {data : Data} {below : List Descent} {inner : Part}
    (hdata : data.field? "hook" = (hookFields attached).lookup "hook")
    (hinner : (below, inner) ∈ Part.hooked attached) : data.at? below = some inner.toData := by
  cases attached with
  | none => cases hinner
  | some children =>
      cases List.mem_singleton.1 hinner
      simp [Data.at?, Data.down?, hdata, hookFields, Part.toData, Node.toData]

/-- What is directly inside a part stands at its place in the data of the part. -/
theorem Part.at?_inside {part inner : Part} {below : List Descent} (hinner : (below, inner) ∈ part.inside) :
    part.toData.at? below = some inner.toData := by
  cases part with
  | ofProgram program => exact Part.at?_nodes rfl hinner
  | ofLiteral literal => cases hinner
  | ofExpression expression =>
      cases expression with
      | value literal =>
          cases List.mem_singleton.1 hinner
          rfl
      | arithmetic operator left right | comparison operator left right =>
          simp only [Part.inside, List.mem_cons] at hinner
          rcases hinner with h | h | h <;> cases h <;> rfl
  | ofNode node =>
      cases node with
      | text content | link sides => cases hinner
      | literal literal =>
          cases List.mem_singleton.1 hinner
          rfl
      | hook children => exact Part.at?_nodes rfl hinner
      | unknownCall name raw attached => exact Part.at?_hooked rfl hinner
      | call known attached =>
          rcases List.mem_append.1 hinner with hargument | hhook
          · exact Part.at?_listed (known.field?_args attached) hargument
          · exact Part.at?_hooked (known.field?_hook attached) hhook

/-- What stands at a place of a program stands at the same place in the data of the program. -/
theorem Program.Holds.at?_eq_some {program : Program} {place : List Descent} {part : Part}
    (h : program.Holds place part) : program.toData.at? place = some part.toData := by
  induction h with
  | whole => rfl
  | inside _ hinner ih =>
      rw [Data.at?] at ih ⊢
      rw [List.foldlM_append, ih]
      exact Part.at?_inside hinner

theorem Part.field?_type (part : Part) : part.toData.field? "type" = some (.text part.typeName) := by
  cases part with
  | ofNode node => exact node.field?_type
  | ofExpression expression => cases expression <;> rfl
  | ofProgram | ofLiteral => rfl

/-- Serialization loses nothing. Every program whose numbers are finite is read back from its data, and from
whatever else is the same value in JSON; so two such programs with the same value in JSON are one program. In
every program, each part stands at its place in the data under the name of its type. -/
theorem serialization_loses_nothing :
    (∀ program : Program, program.HasFiniteNumbers →
      Program.ofData? program.toData = some program ∧
        ∀ data : Data, program.toData.SameJson data → Program.ofData? data = some program) ∧
    (∀ first second : Program, first.HasFiniteNumbers → second.HasFiniteNumbers →
      first.toData.SameJson second.toData → first = second) ∧
    (∀ (program : Program) (place : List Descent) (part : Part), program.Holds place part →
      program.toData.at? place = some part.toData ∧
        part.toData.field? "type" = some (.text part.typeName)) := by
  refine ⟨?_, ?_, ?_⟩
  · intro program hfinite
    exact ⟨Program.ofData?_eq_some hfinite (.refl _), fun data h => Program.ofData?_eq_some hfinite h⟩
  · intro first second hfirst hsecond hsame
    have hread := Program.ofData?_eq_some hfirst hsame
    rw [Program.ofData?_eq_some hsecond (.refl _)] at hread
    exact (Option.some.inj hread).symm
  · intro program place part h
    exact ⟨h.at?_eq_some, part.field?_type⟩

/-- A call with a keyword and a hook, and in the hook a call without either: both are read back, and the number
on the right of the keyword stands under its type. -/
theorem serialization_loses_nothing_nested_calls :
    let number : Literal := .number (.zero false)
    let set : Call := ⟨"set", some .to, [.value (.variable "x"), .value number], .keyword .to .variable .value⟩
    let call : Node := .call set (some [.text "so", .unknownCall "go" "(go:)" none])
    let program : Program := ⟨[call]⟩
    Program.ofData? program.toData = some program ∧
      program.toData.at? [.field "expressions", .item 0, .field "args", .item 1] = some number.toData ∧
      number.toData.field? "type" = some (.text "Number") := by
  intro number set call program
  have hcall : program.Holds [.field "expressions", .item 0] (.ofNode call) := by
    apply Program.Holds.whole.inside
    simp [Part.inside, Part.listed, program]
  have hvalue : program.Holds [.field "expressions", .item 0, .field "args", .item 1]
      (.ofExpression (.value number)) := by
    apply hcall.inside
    simp [Part.inside, Part.listed, call, set]
  refine ⟨(serialization_loses_nothing.1 program (by decide)).1, ?_⟩
  exact serialization_loses_nothing.2.2 program _ _ hvalue

end PassageMarkup
