/-
Module: PassageMarkup.CommandLine
Layer: Command line
Purpose: The command line as a function: from its arguments to what is asked for, and from that to the exit
  code and the texts of both output channels. What surrounds the program is left open: how arguments are
  understood, the libraries for configurations and text formats, and what can be read. A report is printed
  whole or not at all.
Imports: Config.Loader, Files, Report.Process
Main exports: Request, Invocation, Invocation.ofArguments, Outcome, Environment, Request.configure,
  Request.prepare, Prepared.finish, Request.run, Invocation.run, Environment.run
-/
import PassageMarkup.Config.Loader
import PassageMarkup.Files
import PassageMarkup.Report.Process

namespace PassageMarkup

/-- The options of a report, each of which may be given once. -/
structure Options where
  format : Option String := none
  config : Option String := none
  level : Option String := none
deriving DecidableEq, Repr

/-- A report that is asked for: where the passage is, `-` being the standard input, and the options. -/
structure Request where
  path : String
  options : Options
deriving DecidableEq, Repr

/-- What a command line asks for. -/
inductive Invocation where
  | report (request : Request)
  | listFormats
  | version
  | help
  /-- The arguments make no sense. -/
  | misuse
deriving DecidableEq, Repr

/-- The options that take a value. -/
inductive OptionName where
  | format
  | config
  | level
deriving DecidableEq, Repr

/-- The option with a given long name. -/
def OptionName.ofLong? : String → Option OptionName
  | "format" => some .format
  | "config" => some .config
  | "log-level" => some .level
  | _ => none

/-- The option with a given letter. -/
def OptionName.ofLetter? : Char → Option OptionName
  | 'f' => some .format
  | 'c' => some .config
  | _ => none

/-- Give a value to an option that has none yet. -/
def Options.set? (options : Options) (value : String) : OptionName → Option Options
  | .format => if options.format.isSome then none else some { options with format := some value }
  | .config => if options.config.isSome then none else some { options with config := some value }
  | .level => if options.level.isSome then none else some { options with level := some value }

/-- What one argument is. -/
inductive Argument where
  /-- `--`: only plain arguments follow. -/
  | escape
  /-- `--name`, or `--name=value`. -/
  | long (name : String) (value : Option String)
  /-- `-x` with what is written behind the letter. -/
  | short (letter : Char) (rest : List Char)
  | plain
deriving DecidableEq, Repr

/-- Classify an argument. A single hyphen is plain. -/
def Argument.of (text : String) : Argument :=
  match text.toList with
  | ['-'] => .plain
  | ['-', '-'] => .escape
  | '-' :: '-' :: rest =>
      .long (String.ofList (rest.takeWhile (· != '=')))
        ((rest.dropWhile (· != '=')).tail?.map String.ofList)
  | '-' :: letter :: rest => .short letter rest
  | _ => .plain

/-- The value that is written right behind an option's letter, with or without an equals sign. -/
def attachedValue? : List Char → Option String
  | [] => none
  | '=' :: value => some (String.ofList value)
  | value => some (String.ofList value)

/-- Where reading the arguments of a report stands. -/
structure Draft where
  path : Option String
  options : Options
  /-- An option that still waits for its value. -/
  waiting : Option OptionName
  /-- Whether only plain arguments follow. -/
  escaped : Bool

/-- Take the place of the passage. -/
def Draft.place (draft : Draft) (text : String) : Except Invocation Draft :=
  if draft.path.isSome then .error .misuse else .ok { draft with path := some text }

/-- Take an option with its value, or wait for the value. -/
def Draft.option (draft : Draft) (name : Option OptionName) (value : Option String) :
    Except Invocation Draft :=
  match name, value with
  | none, _ => .error .misuse
  | some option, none => .ok { draft with waiting := some option }
  | some option, some text =>
      match draft.options.set? text option with
      | some options => .ok { draft with options, waiting := none }
      | none => .error .misuse

/-- Take one argument of a report. -/
def Draft.take (draft : Draft) (text : String) : Except Invocation Draft :=
  match draft.waiting with
  | some option =>
      if Argument.of text = .plain then draft.option (some option) (some text) else .error .misuse
  | none =>
      if draft.escaped then draft.place text
      else
        match Argument.of text with
        | .escape => .ok { draft with escaped := true }
        | .long "help" none => .error .help
        | .long name value => draft.option (OptionName.ofLong? name) value
        | .short 'h' _ => .error .help
        | .short letter rest => draft.option (OptionName.ofLetter? letter) (attachedValue? rest)
        | .plain => draft.place text

/-- What the arguments of a report ask for. -/
def reportInvocation (arguments : List String) : Invocation :=
  match arguments.foldlM Draft.take (⟨none, {}, none, false⟩ : Draft) with
  | .error invocation => invocation
  | .ok draft =>
      match draft.path, draft.waiting with
      | some path, none => .report ⟨path, draft.options⟩
      | _, _ => .misuse

/-- What the arguments of a command without options ask for. -/
def plainInvocation (invocation : Invocation) : List String → Invocation
  | [] => invocation
  | first :: rest =>
      match Argument.of first with
      | .escape => if rest.isEmpty then invocation else .misuse
      | .long "help" none => .help
      | .short 'h' _ => .help
      | _ => .misuse

/-- What the arguments of a call for help ask for: help on one command at most. -/
def helpInvocation : List String → Invocation
  | [] => .help
  | ["parse"] | ["list-formats"] | ["help"] => .help
  | _ => .misuse

/-- What a command line asks for. -/
def Invocation.ofArguments : List String → Invocation
  | [] => .misuse
  | "parse" :: rest => reportInvocation rest
  | "list-formats" :: rest => plainInvocation .listFormats rest
  | "help" :: rest => helpInvocation rest
  | first :: _ =>
      match Argument.of first with
      | .long "version" none => .version
      | .long "help" none => .help
      | .short 'V' _ => .version
      | .short 'h' _ => .help
      | _ => .misuse

/-- How the program ends: its exit code, and what it writes to both channels. -/
structure Outcome where
  code : Nat
  out : String
  err : String
deriving DecidableEq, Repr

/-- The end with a message about what went wrong. -/
def Outcome.failure (message : String) : Outcome :=
  ⟨1, "", message ++ "\n"⟩

/-- A text with a line feed at its end, added unless it is there. -/
def withLineEnd (text : String) : String :=
  if text.toList.getLast? = some '\n' then text else text ++ "\n"

/-- What surrounds the program. -/
structure Environment where
  /-- What a command line asks for. -/
  understand : List String → Invocation
  library : ConfigLibrary
  writers : Writers
  read : FileReader
  /-- What reading the standard input gives. -/
  input : Except ReadFailure ByteArray

/-- Override the setting of a key by the value of an option, if it is given. -/
def Loader.setOption (library : ConfigLibrary) (key option : String) (value : Option String)
    (loader : Loader) : Except String Loader :=
  match value with
  | none => .ok loader
  | some text =>
      (loader.setOverride library key (.text text)).mapError fun error =>
        "Invalid --" ++ option ++ ": " ++ error.message

/-- The loader of a request: its file over the defaults, under its options. -/
def Request.loader (library : ConfigLibrary) (request : Request) : Except String Loader := do
  let start :=
    match request.options.config with
    | none => Loader.new
    | some path => Loader.new.withFile path
  let formatted ← start.setOption library "output.format" "format" request.options.format
  formatted.setOption library "logging.level" "log-level" request.options.level

/-- The configuration of a request, or what is said if it cannot be loaded. -/
def Request.configure (library : ConfigLibrary) (read : FileReader) (request : Request) :
    Except String Config := do
  let loader ← request.loader library
  (loader.build library read).mapError fun error => "Error loading configuration: " ++ error.message

/-- A request with all that it takes besides the passage. -/
structure Prepared where
  path : String
  catalog : Catalog
  kind : ReportKind

/-- Load the configuration of a request and settle which report is made. -/
def Request.prepare (library : ConfigLibrary) (read : FileReader) (request : Request) :
    Except String Prepared := do
  let config ← request.configure library read
  let kind ← (ReportKind.ofName? config.format).mapError ProcessError.message
  return ⟨request.path, config.catalog, kind⟩

/-- Make the report on a passage, or say why it could not be read. -/
def Prepared.finish (writers : Writers) (prepared : Prepared) (source : Except ReadFailure String) :
    Outcome :=
  match source with
  | .error failure => .failure ("Error reading " ++ prepared.path ++ ": " ++ failure.message)
  | .ok text =>
      match process writers prepared.catalog prepared.kind text with
      | .ok output => ⟨0, withLineEnd output, ""⟩
      | .error (.parse error) => .failure (error.kindName ++ ": " ++ error.message)
      | .error error => .failure ("Error: " ++ error.message)

/-- The passage at a path, where a single hyphen is the standard input. -/
def Environment.passage (environment : Environment) (path : String) : Except ReadFailure String :=
  (if path = "-" then environment.input else environment.read path) >>= decodeText

/-- Carry out a request. -/
def Request.run (environment : Environment) (request : Request) : Outcome :=
  match request.prepare environment.library environment.read with
  | .error message => .failure message
  | .ok prepared => prepared.finish environment.writers (environment.passage request.path)

/-- The list of formats. -/
def formatsOutcome : Outcome :=
  ⟨0, "Available formats:\n\n" ++ String.join (availableFormats.map fun name => "  " ++ name ++ "\n"),
   ""⟩

/-- The name of the program with its version. -/
def versionOutcome : Outcome :=
  ⟨0, "weft 0.1.0\n", ""⟩

/-- How the program is used. -/
def usage : String :=
  "Usage: weft parse <path|-> [--format <format>] [--config <file>] [--log-level <level>]\n" ++
    "       weft list-formats\n"

/-- Carry out what a command line asks for. -/
def Invocation.run (environment : Environment) : Invocation → Outcome
  | .misuse => ⟨2, "", usage⟩
  | .help => ⟨0, usage, ""⟩
  | .version => versionOutcome
  | .listFormats => formatsOutcome
  | .report request => request.run environment

/-- Carry out a command line. -/
def Environment.run (environment : Environment) (arguments : List String) : Outcome :=
  (environment.understand arguments).run environment

end PassageMarkup
