/-
Module: PassageMarkup.Config.Loader
Layer: Config
Purpose: How a configuration is put together. A loader starts from the text of the defaults, takes files in
  order and overrides by key, and has a library build the configuration. What the library makes of its
  sources is left open; a configuration itself is a report format, a logging level and further calls.
Imports: Catalog.Basic, Config.Setting, Files
Main exports: Config, Config.catalog, ConfigError, Source, ConfigLibrary, defaultText, Loader, Loader.new,
  Loader.withFile, Loader.setOverride, Loader.build
-/
import PassageMarkup.Catalog.Basic
import PassageMarkup.Config.Setting
import PassageMarkup.Files

namespace PassageMarkup

/-- A loaded configuration. -/
structure Config where
  /-- The name of the report that is made unless another one is asked for. -/
  format : String
  level : String
  /-- Further calls, in order. -/
  calls : List (String × Pattern)
deriving DecidableEq

/-- The known calls under a configuration: a later entry replaces an earlier one. -/
def Config.catalog (config : Config) : Catalog :=
  Catalog.builtin.extend config.calls

/-- The kinds of causes for which a configuration cannot be loaded. -/
inductive ConfigFailure where
  /-- A file that must be there is missing. -/
  | missingFile
  /-- A file is no document of its format. -/
  | malformedFile
  /-- An override has no proper key. -/
  | malformedKey
  /-- A list or table stands where a text is wanted. -/
  | notText
  /-- A setting is missing or has a wrong form. -/
  | malformedSetting
deriving DecidableEq, Repr

/-- Why a configuration cannot be loaded, and the cause in words. -/
structure ConfigError where
  failure : ConfigFailure
  message : String
deriving DecidableEq, Repr

/-- Where settings come from. A file may be required, or else add nothing if it is missing. -/
inductive Source where
  | text (content : String)
  | file (path : String) (required : Bool)
deriving DecidableEq, Repr

/-- A library that loads configurations. -/
structure ConfigLibrary where
  /-- Whether an override can have a key, or why not. -/
  checkKey (key : String) : Except ConfigError Unit
  /-- The configuration that sources make, in order, and overrides by key on top of them. -/
  build (read : FileReader) (sources : List Source) (overrides : List (String × Setting)) :
    Except ConfigError Config

/-- The lines of the document of the defaults. -/
def defaultLines : List String :=
  ["# Default configuration for weft.",
   "#",
   "# This file is embedded into the library; user files passed with --config are layered on",
   "# top of it, and command-line flags override both.",
   "",
   "[output]",
   "# One of: token-simple, token-json, ast-json, ast-yaml, ast-treeviz",
   "format = \"ast-json\"",
   "",
   "[logging]",
   "# tracing filter directive; RUST_LOG takes precedence when set",
   "level = \"warn\"",
   "",
   "[catalog]",
   "# Extra macros, added to (or replacing) the built-in table. Example:",
   "#",
   "# [[catalog.macros]]",
   "# name = \"cycling-link\"",
   "# pattern = \x7b shape = \"variadic\", min = 2, arg = \"string-literal\" \x7d",
   "macros = []"]

/-- The document of the defaults. -/
def defaultText : String :=
  String.join (defaultLines.map (· ++ "\n"))

/-- A configuration that is being put together. -/
structure Loader where
  sources : List Source
  overrides : List (String × Setting)
deriving DecidableEq

namespace Loader

/-- A loader that knows the defaults only. -/
def new : Loader :=
  ⟨[.text defaultText], []⟩

/-- Put a file on top of the sources; it must be there. -/
def withFile (loader : Loader) (path : String) : Loader :=
  { loader with sources := loader.sources ++ [.file path true] }

/-- Put a file on top of the sources if it is there. -/
def withOptionalFile (loader : Loader) (path : String) : Loader :=
  { loader with sources := loader.sources ++ [.file path false] }

/-- Override the setting of a key, if the library takes the key. -/
def setOverride (library : ConfigLibrary) (key : String) (value : Setting) (loader : Loader) :
    Except ConfigError Loader := do
  library.checkKey key
  return { loader with overrides := loader.overrides ++ [(key, value)] }

/-- The configuration that has been put together. -/
def build (library : ConfigLibrary) (read : FileReader) (loader : Loader) : Except ConfigError Config :=
  library.build read loader.sources loader.overrides

end Loader

end PassageMarkup
