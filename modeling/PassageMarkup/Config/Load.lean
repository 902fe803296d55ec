/-
Module: PassageMarkup.Config.Load
Layer: Config
Purpose: A library that loads configurations from TOML documents: the sources in order, then the overrides,
  and what the result says about the report format, the logging level and further calls for the catalog.
  Where a text is wanted, numbers and truth values do as well; a record may also be a list of its fields in
  order.
Imports: Config.Loader, Config.Merge, Config.Toml.Document
Main exports: mergeDocument, contentOf, mergeSource, settings, ofSettings, ConfigLibrary.toml
-/
import PassageMarkup.Config.Loader
import PassageMarkup.Config.Merge
import PassageMarkup.Config.Toml.Document

namespace PassageMarkup

namespace ConfigError

/-- A file that must be there is missing. -/
def missingFile : ConfigError := ⟨.missingFile, "configuration file not found"⟩

/-- A file is no TOML document. -/
def malformedFile : ConfigError := ⟨.malformedFile, "malformed configuration file"⟩

/-- The key of an override is no path. -/
def malformedKey (key : String) : ConfigError := ⟨.malformedKey, "malformed key " ++ key⟩

/-- A list or table stands where a text is wanted. -/
def notText : ConfigError := ⟨.notText, "text expected"⟩

/-- A setting is missing or has a wrong form. -/
def malformedSetting : ConfigError := ⟨.malformedSetting, "malformed setting"⟩

end ConfigError

namespace Config

/-- Merge a TOML document into settings. -/
def mergeDocument (content : String) (fields : Fields) : Except ConfigError Fields :=
  match Toml.readDocument? content with
  | none => .error .malformedFile
  | some incoming => .ok (incoming.foldl (fun known entry => putNamed entry.1 entry.2 known) fields)

/-- The paths at which the file of a source is looked for, in order: the one that is given, and the one with
the ending of TOML documents behind it. -/
def pathsOf : Source → List String
  | .text _ => []
  | .file path _ => [path, path ++ ".toml"]

/-- The content of a source, if there is any. -/
def contentOf (read : FileReader) (source : Source) : Except ConfigError (Option String) :=
  match source with
  | .text content => .ok (some content)
  | .file _ required =>
      match (pathsOf source).findSome? fun path => (read path).toOption with
      | none => if required then .error .missingFile else .ok none
      | some bytes =>
          match decodeText bytes with
          | .error _ => .error .malformedFile
          | .ok content => .ok (some content)

/-- Merge a source into settings. -/
def mergeSource (read : FileReader) (fields : Fields) (source : Source) : Except ConfigError Fields := do
  match ← contentOf read source with
  | none => return fields
  | some content => mergeDocument content fields

/-- The path of an override. -/
def pathOf (key : String) : Except ConfigError Path :=
  match Path.read? key with
  | some path => .ok path
  | none => .error (.malformedKey key)

/-- Put the value of an override at its path. -/
def putOverride (fields : Fields) (entry : String × Setting) : Except ConfigError Fields := do
  return putAt (← pathOf entry.1) entry.2 fields

/-- The settings that sources and overrides make. -/
def settings (read : FileReader) (sources : List Source) (overrides : List (String × Setting)) :
    Except ConfigError Fields := do
  overrides.foldlM putOverride (← sources.foldlM (mergeSource read) [])

/-- The text that a setting stands for. -/
def textOf : Setting → Except ConfigError String
  | .text value => .ok value
  | .boolean value => .ok (if value then "true" else "false")
  | .integer value => .ok (toString value)
  | .real value => .ok (value.numeral Number.labelStyle)
  | _ => .error .notText

/-- The field of a record: by name in a table, by place in a list. -/
def recordField? (name : String) (place : Nat) : Setting → Except ConfigError (Option Setting)
  | .table fields => .ok (fields.lookup name)
  | .list items => .ok items[place]?
  | _ => .error .malformedSetting

/-- A field that a record must have. -/
def required (name : String) (place : Nat) (setting : Setting) : Except ConfigError Setting := do
  match ← recordField? name place setting with
  | some value => return value
  | none => throw .malformedSetting

/-- A further call for the catalog. -/
def callOf (setting : Setting) : Except ConfigError (String × Pattern) := do
  let name ← textOf (← required "name" 0 setting)
  match Pattern.ofSetting? (← required "pattern" 1 setting) with
  | some pattern => return (name, pattern)
  | none => throw .malformedSetting

/-- Further calls for the catalog. -/
def callsOf : Setting → Except ConfigError (List (String × Pattern))
  | .list items => items.mapM callOf
  | _ => .error .malformedSetting

/-- The configuration that settings describe. -/
def ofSettings (fields : Fields) : Except ConfigError Config := do
  let all : Setting := .table fields
  let format ← textOf (← required "format" 0 (← required "output" 0 all))
  let level ← textOf (← required "level" 0 (← required "logging" 1 all))
  let calls ←
    match ← recordField? "catalog" 2 all with
    | none => pure []
    | some catalog =>
        match ← recordField? "macros" 0 catalog with
        | none => pure []
        | some calls => callsOf calls
  return ⟨format, level, calls⟩

end Config

/-- The library that loads TOML documents. -/
def ConfigLibrary.toml : ConfigLibrary where
  checkKey key := do
    discard (Config.pathOf key)
  build read sources overrides := do
    Config.ofSettings (← Config.settings read sources overrides)

end PassageMarkup
