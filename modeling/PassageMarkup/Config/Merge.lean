/-
Module: PassageMarkup.Config.Merge
Layer: Config
Purpose: Putting settings together. A setting put at a path replaces what was there, except that tables
  are merged field by field. Names of fields are compared in lower case. An empty table changes nothing
  that exists.
Imports: Config.Path, Config.Setting, Text.Lowercase
Main exports: Fields, putField, putAt, putNamed
-/
import PassageMarkup.Config.Path
import PassageMarkup.Config.Setting
import PassageMarkup.Text.Lowercase

namespace PassageMarkup.Config

/-- The fields of a table. -/
abbrev Fields := List (String × Setting)

/-- The fields of a setting, none unless it is a table. -/
def fieldsOf : Setting → Fields
  | .table fields => fields
  | _ => []

/-- The items of a setting, none unless it is a list. -/
def itemsOf : Setting → List Setting
  | .list items => items
  | _ => []

/-- Set the field of a key, in place if it is there. -/
def setKey (key : String) (value : Setting) : Fields → Fields
  | [] => [(key, value)]
  | (name, old) :: rest =>
      if name = key then (key, value) :: rest else (name, old) :: setKey key value rest

mutual

/-- Merge a setting into the field of a name. A table is merged into the table that is there; where there
is something else, that stays if the incoming table is empty and gives way to a table otherwise. -/
def putField (name : String) : Setting → Fields → Fields
  | .table incoming, fields =>
      let key := Text.lowercase name
      let old := (fields.lookup key).getD (.table [])
      let merged := if incoming.isEmpty then old else .table (putAll incoming (fieldsOf old))
      setKey key merged fields
  | .nil, fields => setKey (Text.lowercase name) .nil fields
  | .boolean value, fields => setKey (Text.lowercase name) (.boolean value) fields
  | .integer value, fields => setKey (Text.lowercase name) (.integer value) fields
  | .real value, fields => setKey (Text.lowercase name) (.real value) fields
  | .text value, fields => setKey (Text.lowercase name) (.text value) fields
  | .list items, fields => setKey (Text.lowercase name) (.list items) fields

/-- Merge settings into the fields of their names, in order. -/
def putAll : Fields → Fields → Fields
  | [], fields => fields
  | (name, value) :: rest, fields => putAll rest (putField name value fields)

end

/-- The place of a list that an index means, where a negative one counts from the end. -/
def placeOf (index : Int) (length : Nat) : Nat :=
  if 0 ≤ index then index.toNat else (length + index).toNat

/-- Set a place of a list, filled up to that place if it is shorter. -/
def setPlace (place : Nat) (filler value : Setting) (items : List Setting) : List Setting :=
  (items ++ List.replicate (place + 1 - items.length) filler).set place value

/-- Put a setting at the end of some steps from a setting. What has the wrong form on the way gives way
to an empty table or list. -/
def putSteps (value : Setting) : List Step → Setting → Setting
  | [], _ => value
  | [.field name], setting => .table (putField name value (fieldsOf setting))
  | [.place index], setting =>
      let items := itemsOf setting
      .list (setPlace (placeOf index items.length) (.table []) value items)
  | .field name :: rest, setting =>
      let key := Text.lowercase name
      let fields := fieldsOf setting
      .table (setKey key (putSteps value rest ((fields.lookup key).getD .nil)) fields)
  | .place index :: rest, setting =>
      let items := itemsOf setting
      let place := placeOf index items.length
      .list (setPlace place .nil (putSteps value rest (items[place]?.getD .nil)) items)

/-- Put a setting at a path. -/
def putAt (path : Path) (value : Setting) (fields : Fields) : Fields :=
  fieldsOf (putSteps value (.field path.first :: path.steps) (.table fields))

/-- Put a setting at the path that a name spells, or else into the field of that name. -/
def putNamed (name : String) (value : Setting) (fields : Fields) : Fields :=
  match Path.read? name with
  | some path => putAt path value fields
  | none => putField name value fields

end PassageMarkup.Config
