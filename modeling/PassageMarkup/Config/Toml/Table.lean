/-
Module: PassageMarkup.Config.Toml.Table
Layer: Config
Purpose: The tables of a TOML document while it is read. A table remembers how it came to be: named by a
  header, only passed through on the way to another one, or spelled out by dotted keys. This decides
  whether it may be named or extended again.
Imports: Config.Setting
Main exports: Table, Entry, descend, Table.put?, Table.openTable?, Table.openElement?, Table.toFields
-/
import PassageMarkup.Config.Setting

namespace PassageMarkup.Toml

/-- What a key stands for. -/
inductive Entry where
  | value (setting : Setting)
  /-- A table; `implicit` if no header has named it, `dotted` if dotted keys made it. -/
  | table (implicit dotted : Bool) (fields : List (String × Entry))
  /-- The tables named by array headers, in order. -/
  | elements (tables : List (List (String × Entry)))
deriving Inhabited

/-- A table with how it came to be. -/
structure Table where
  implicit : Bool
  dotted : Bool
  fields : List (String × Entry)
deriving Inhabited

/-- A table as an entry. -/
def Table.toEntry (table : Table) : Entry :=
  .table table.implicit table.dotted table.fields

/-- Set a field, in place if it is there. -/
def setField (key : String) (entry : Entry) : List (String × Entry) → List (String × Entry)
  | [] => [(key, entry)]
  | (name, old) :: rest =>
      if name = key then (key, entry) :: rest else (name, old) :: setField key entry rest

/-- Change the table at the end of a path of keys. A table that is missing on the way is made; an array
of tables stands for its last element. Dotted keys do not lead through a table that a header names. -/
def descend (dotted : Bool) :
    List String → (Table → Option Table) → Table → Option Table
  | [], change, table => change table
  | key :: path, change, table => do
      let entry ←
        match table.fields.lookup key with
        | none => do
            let child ← descend dotted path change ⟨true, dotted, []⟩
            some child.toEntry
        | some (.value _) => none
        | some (.elements tables) =>
            match tables.getLast? with
            | none => none
            | some last => do
                let child ← descend dotted path change ⟨false, false, last⟩
                some (.elements (tables.dropLast ++ [child.fields]))
        | some (.table implicit made fields) =>
            if dotted && !implicit then none
            else do
              let child ← descend dotted path change ⟨implicit, made, fields⟩
              some child.toEntry
      some { table with fields := setField key entry table.fields }

/-- Split a path into the keys on the way and the last one. -/
def splitLast? (path : List String) : Option (List String × String) :=
  path.getLast?.map fun key => (path.dropLast, key)

/-- Give a value to a key, which may be dotted; the key must be new, and a table made by dotted keys is
extended by dotted keys only. -/
def Table.put? (table : Table) (path : List String) (value : Setting) : Option Table := do
  let (way, key) ← splitLast? path
  descend true way
    (fun target =>
      if target.dotted == way.isEmpty || (target.fields.lookup key).isSome then none
      else some { target with fields := setField key (.value value) target.fields })
    table

/-- Name a table by a header: it is new, or was only passed through so far. Either way it becomes the last
field. -/
def Table.openTable? (table : Table) (path : List String) : Option Table := do
  let (way, key) ← splitLast? path
  descend false way
    (fun parent =>
      match parent.fields.lookup key with
      | none => some { parent with fields := setField key (.table false false []) parent.fields }
      | some (.table true false fields) =>
          let others := parent.fields.filter fun field => field.1 != key
          some { parent with fields := others ++ [(key, .table false false fields)] }
      | _ => none)
    table

/-- Start a further element of an array of tables by a header. -/
def Table.openElement? (table : Table) (path : List String) : Option Table := do
  let (way, key) ← splitLast? path
  descend false way
    (fun parent =>
      match parent.fields.lookup key with
      | none => some { parent with fields := setField key (.elements [[]]) parent.fields }
      | some (.elements tables) =>
          some { parent with fields := setField key (.elements (tables ++ [[]])) parent.fields }
      | _ => none)
    table

mutual

/-- An entry as a setting. -/
def Entry.toSetting : Entry → Setting
  | .value setting => setting
  | .table _ _ fields => .table (fieldSettings fields)
  | .elements tables => .list (tableSettings tables)

/-- The fields of a table as settings. -/
def fieldSettings : List (String × Entry) → List (String × Setting)
  | [] => []
  | (key, entry) :: rest => (key, entry.toSetting) :: fieldSettings rest

/-- The elements of an array of tables as settings. -/
def tableSettings : List (List (String × Entry)) → List Setting
  | [] => []
  | fields :: rest => .table (fieldSettings fields) :: tableSettings rest

end

/-- The fields of a table as settings. -/
def Table.toFields (table : Table) : List (String × Setting) :=
  fieldSettings table.fields

end PassageMarkup.Toml
