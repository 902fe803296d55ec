/-
Module: PassageMarkup.Report.Process
Layer: Report
Purpose: Reports on a passage. A report shows one stage of its analysis, the tokens or the tree, in one
  format; not every stage has every format. A report is asked for by the names of stage and format with a
  hyphen between them.
Imports: Files, Passage.Parse, Report.Listing, Report.Serial, Report.TreeView
Main exports: Stage, Format, ReportKind, ReportKind.available, ReportKind.ofName?, ProcessError,
  formatTokens, formatProgram, process, processFile
-/
import PassageMarkup.Files
import PassageMarkup.Passage.Parse
import PassageMarkup.Report.Listing
import PassageMarkup.Report.Serial
import PassageMarkup.Report.TreeView

namespace PassageMarkup

/-- What a report shows of a passage. -/
inductive Stage where
  | token
  | ast
deriving DecidableEq, Repr

/-- How a report shows it. -/
inductive Format where
  | simple
  | json
  | yaml
  | treeview
deriving DecidableEq, Repr

/-- The name of a stage. -/
def Stage.name : Stage → String
  | .token => "token"
  | .ast => "ast"

/-- The name of a format. -/
def Format.name : Format → String
  | .simple => "simple"
  | .json => "json"
  | .yaml => "yaml"
  | .treeview => "treeviz"

/-- The stage with a given name. -/
def Stage.ofName? (name : String) : Option Stage :=
  [Stage.token, Stage.ast].find? (·.name == name)

/-- The format with a given name. -/
def Format.ofName? (name : String) : Option Format :=
  [Format.simple, Format.json, Format.yaml, Format.treeview].find? (·.name == name)

/-- A stage in a format. -/
structure ReportKind where
  stage : Stage
  format : Format
deriving DecidableEq, Repr

/-- The name by which a report is asked for. -/
def ReportKind.name (kind : ReportKind) : String :=
  kind.stage.name ++ "-" ++ kind.format.name

/-- The reports that there are. -/
def ReportKind.available : List ReportKind :=
  [⟨.token, .simple⟩, ⟨.token, .json⟩, ⟨.ast, .json⟩, ⟨.ast, .yaml⟩, ⟨.ast, .treeview⟩]

/-- Why there is no report. -/
inductive ProcessError where
  /-- The name has no hyphen. -/
  | invalidFormat (name : String)
  /-- No stage has this name. -/
  | invalidStage (name : String)
  /-- No format has this name. -/
  | unknownFormat (name : String)
  /-- The stage cannot be asked for in this format. -/
  | unsupported (stage : Stage) (format : Format)
  /-- The format shows only the other stage. -/
  | wrongStage (format : Format) (wanted : Stage)
  /-- The passage cannot be read from where it is kept. -/
  | unreadable (failure : ReadFailure)
  /-- The writer of the format fails. -/
  | serialization (reason : String)
  /-- The passage is refused. -/
  | parse (error : ParseError)
deriving DecidableEq, Repr

/-- The name of the cause. -/
def ProcessError.kindName : ProcessError → String
  | .invalidFormat _ => "InvalidFormat"
  | .invalidStage _ => "InvalidStage"
  | .unknownFormat _ => "InvalidFormatType"
  | .unsupported _ _ => "InvalidFormatType"
  | .wrongStage _ _ => "InvalidFormatType"
  | .unreadable _ => "IoError"
  | .serialization _ => "Serialization"
  | .parse error => error.kindName

/-- The cause in words. -/
def ProcessError.message : ProcessError → String
  | .invalidFormat name => "Invalid format: " ++ name
  | .invalidStage name => "Invalid stage: " ++ name
  | .unknownFormat name => "Invalid format type: " ++ name
  | .unsupported stage format =>
      "Invalid format type: format '" ++ format.name ++ "' is not supported for the " ++ stage.name ++
        " stage"
  | .wrongStage format wanted =>
      "Invalid format type: format '" ++ format.name ++ "' only works with the " ++ wanted.name ++
        " stage"
  | .unreadable failure => "IO error: " ++ failure.message
  | .serialization reason => "Serialization error: " ++ reason
  | .parse error => error.message

/-- Split a text at its first hyphen. -/
def splitAtHyphen? (text : String) : Option (String × String) :=
  let cs := text.toList
  match cs.dropWhile (· != '-') with
  | [] => none
  | _ :: rest => some (String.ofList (cs.takeWhile (· != '-')), String.ofList rest)

/-- The report that a name asks for. -/
def ReportKind.ofName? (name : String) : Except ProcessError ReportKind :=
  match splitAtHyphen? name with
  | none => .error (.invalidFormat name)
  | some (stageName, formatName) =>
      match Stage.ofName? stageName with
      | none => .error (.invalidStage stageName)
      | some stage =>
          match Format.ofName? formatName with
          | none => .error (.unknownFormat formatName)
          | some format =>
              if ReportKind.available.contains ⟨stage, format⟩ then .ok ⟨stage, format⟩
              else .error (.unsupported stage format)

/-- The names of the reports that there are. -/
def availableFormats : List String :=
  ReportKind.available.map ReportKind.name

section

variable (writers : Writers)

/-- Tokens in a format. -/
def formatTokens (tokens : List Token) : Format → Except ProcessError String
  | .simple => .ok (listing tokens)
  | .json =>
      (writers.json (Data.list (tokens.map Token.toData)).toSerial).mapError .serialization
  | format => .error (.wrongStage format .ast)

/-- A program in a format. -/
def formatProgram (program : Program) : Format → Except ProcessError String
  | .json => (writers.json program.toData.toSerial).mapError .serialization
  | .yaml => (writers.yaml program.toData.toSerial).mapError .serialization
  | .treeview => .ok program.treeView
  | .simple => .error (.wrongStage .simple .token)

/-- The report on a passage. Tokens are shown as scanned, before bracket runs are resolved. -/
def process (catalog : Catalog) (kind : ReportKind) (source : String) : Except ProcessError String :=
  match kind.stage with
  | .token =>
      match tokenize source with
      | .error error => .error (.parse error)
      | .ok tokens => formatTokens writers tokens kind.format
  | .ast =>
      match parse catalog source with
      | .error error => .error (.parse error)
      | .ok program => formatProgram writers program kind.format

/-- The report on a passage in a file, given what reading the file gave. -/
def processFile (catalog : Catalog) (kind : ReportKind) (content : Except ReadFailure ByteArray) :
    Except ProcessError String :=
  match content >>= decodeText with
  | .error failure => .error (.unreadable failure)
  | .ok source => process writers catalog kind source

end

end PassageMarkup
