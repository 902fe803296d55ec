/-
Module: PassageMarkup.Config.Setting
Layer: Config
Purpose: Settings, the values that configuration files and pattern descriptions are made of, and how a
  pattern is read from one. A pattern is a table with a shape and the fields of that shape, where other
  fields are ignored, or a list of the shape and exactly those fields in order.
Imports: Catalog.Pattern
Main exports: Setting, Setting.same_iff, Pattern.ofFields?, Pattern.ofItems?, Pattern.ofSetting?
-/
import PassageMarkup.Catalog.Pattern

namespace PassageMarkup

/-- A configured value. -/
inductive Setting where
  | nil
  | boolean (value : Bool)
  | integer (value : Int)
  | real (value : Number.Binary64)
  | text (value : String)
  | list (items : List Setting)
  | table (fields : List (String × Setting))
deriving Inhabited

mutual

/-- Whether two settings are the same. -/
def Setting.same : Setting → Setting → Bool
  | .nil, .nil => true
  | .boolean value, .boolean other => value == other
  | .integer value, .integer other => value == other
  | .real value, .real other => value == other
  | .text value, .text other => value == other
  | .list items, .list others => sameItems items others
  | .table fields, .table others => sameFields fields others
  | _, _ => false

/-- Whether two lists have the same settings. -/
def sameItems : List Setting → List Setting → Bool
  | [], [] => true
  | item :: rest, other :: others => item.same other && sameItems rest others
  | _, _ => false

/-- Whether two tables have the same fields in the same order. -/
def sameFields : List (String × Setting) → List (String × Setting) → Bool
  | [], [] => true
  | (name, value) :: rest, (key, other) :: others =>
      name == key && value.same other && sameFields rest others
  | _, _ => false

end

mutual

theorem Setting.same_iff : ∀ {setting other : Setting}, setting.same other = true ↔ setting = other
  | .nil, other | .boolean _, other | .integer _, other | .real _, other | .text _, other => by
      cases other <;> simp [Setting.same]
  | .list items, other => by cases other <;> simp [Setting.same, @sameItems_iff items]
  | .table fields, other => by cases other <;> simp [Setting.same, @sameFields_iff fields]

theorem sameItems_iff : ∀ {items others : List Setting}, sameItems items others = true ↔ items = others
  | [], others => by cases others <;> simp [sameItems]
  | item :: rest, others => by
      cases others <;> simp [sameItems, @Setting.same_iff item, @sameItems_iff rest]

theorem sameFields_iff :
    ∀ {fields others : List (String × Setting)}, sameFields fields others = true ↔ fields = others
  | [], others => by cases others <;> simp [sameFields]
  | (_, value) :: rest, others => by
      cases others <;> simp [sameFields, Prod.ext_iff, and_assoc, @Setting.same_iff value,
        @sameFields_iff rest]

end

instance : DecidableEq Setting := fun _ _ => decidable_of_iff _ Setting.same_iff

/-- The text that a setting is. -/
def Setting.text? : Setting → Option String
  | .text content => some content
  | _ => none

/-- The count that a setting is: a whole number that is not negative and fits into 64 bits. -/
def Setting.count? : Setting → Option Nat
  | .integer number => if 0 ≤ number ∧ number < Nat.pow 2 64 then some number.toNat else none
  | _ => none

/-- The name that a setting chooses: as a text, or as the only field of a table, which must then hold
nothing. -/
def Setting.choice? : Setting → Option String
  | .text content => some content
  | .table [(name, .nil)] => some name
  | .table [(name, .table [])] => some name
  | _ => none

/-- The category that a setting chooses. -/
def Category.ofSetting? (setting : Setting) : Option Category :=
  setting.choice?.bind Category.ofTag?

/-- The keyword that a setting chooses. -/
def Keyword.ofSetting? (setting : Setting) : Option Keyword :=
  setting.choice?.bind Keyword.ofSymbol?

/-- The categories that a list of settings names. -/
def categoriesOfSetting? : Setting → Option (List Category)
  | .list items => items.mapM Category.ofSetting?
  | _ => none

/-- The names of a shape's fields, in order. -/
def shapeFields? : String → Option (List String)
  | "keyword" => some ["keyword", "left", "right"]
  | "positional" => some ["args"]
  | "variadic" => some ["min", "arg"]
  | _ => none

/-- The pattern of a shape, given the settings of its fields in order. -/
def Pattern.ofShape? : String → List Setting → Option Pattern
  | "keyword", [word, left, right] => do
      let keyword ← Keyword.ofSetting? word
      let left ← Category.ofSetting? left
      let right ← Category.ofSetting? right
      some (.keyword keyword left right)
  | "positional", [args] => (categoriesOfSetting? args).map .positional
  | "variadic", [min, arg] => do
      let min ← min.count?
      let category ← Category.ofSetting? arg
      some (.variadic min category)
  | _, _ => none

/-- The pattern that the fields of a table describe. -/
def Pattern.ofFields? (fields : List (String × Setting)) : Option Pattern := do
  let shape ← (← fields.lookup "shape").text?
  let names ← shapeFields? shape
  Pattern.ofShape? shape (← names.mapM fun name => fields.lookup name)

/-- The pattern that a list describes. -/
def Pattern.ofItems? : List Setting → Option Pattern
  | shape :: fields => shape.text?.bind fun name => Pattern.ofShape? name fields
  | [] => none

/-- The pattern that a setting describes. -/
def Pattern.ofSetting? : Setting → Option Pattern
  | .table fields => Pattern.ofFields? fields
  | .list items => Pattern.ofItems? items
  | _ => none

end PassageMarkup
