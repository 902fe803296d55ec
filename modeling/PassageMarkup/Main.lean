/-
Module: PassageMarkup.Main
Layer: Command line
Purpose: The program itself: it reads the files that the command line names and prints the outcome.
Imports: CommandLine, Config.Load
Main exports: carryOut, main
-/
import PassageMarkup.CommandLine
import PassageMarkup.Config.Load

namespace PassageMarkup

/-- Read a stream to its end. -/
partial def readAll (stream : IO.FS.Stream) (taken : ByteArray) : IO ByteArray := do
  let chunk ← stream.read 65536
  if chunk.isEmpty then return taken else readAll stream (taken ++ chunk)

/-- Why reading failed, as the system says it. -/
def readFailure : IO.Error → ReadFailure
  | .noFileOrDirectory _ _ _ => .missing
  | .permissionDenied _ _ _ => .other "Permission denied (os error 13)"
  | .inappropriateType _ code _ => if code = 20 then .notDirectory else .isDirectory
  | .invalidArgument _ 36 _ => .nameTooLong
  | error => .other (toString error)

/-- Read the file at a path. -/
def readFile (path : String) : IO (Except ReadFailure ByteArray) := do
  try
    return .ok (← IO.FS.readBinFile path)
  catch error => return .error (readFailure error)

/-- Read the standard input. -/
def readInput : IO (Except ReadFailure ByteArray) := do
  try
    return .ok (← readAll (← IO.getStdin) .empty)
  catch error => return .error (readFailure error)

/-- Read the files at some paths; nothing is found anywhere else. -/
def readFiles (paths : List String) : IO FileReader := do
  let found ← paths.mapM fun path => return (path, ← readFile path)
  return fun path => (found.lookup path).getD (.error .missing)

/-- Print an outcome and give its exit code. -/
def report (outcome : Outcome) : IO UInt32 := do
  IO.print outcome.out
  IO.eprint outcome.err
  return outcome.code.toUInt32

/-- Carry out what the command line asks for. The passage is read only once the configuration is there. -/
def carryOut (arguments : List String) : IO UInt32 := do
  let invocation := Invocation.ofArguments arguments
  match invocation with
  | .report request =>
      let sources := request.options.config.toList.map fun path => Source.file path true
      let read ← readFiles (sources.flatMap Config.pathsOf)
      match request.prepare .toml read with
      | .error message => report (.failure message)
      | .ok prepared =>
          let content ← if request.path = "-" then readInput else readFile request.path
          report (prepared.finish .standard (content >>= decodeText))
  | _ => report (invocation.run ⟨Invocation.ofArguments, .toml, .standard, ← readFiles [], .ok .empty⟩)

end PassageMarkup

/-- The program. -/
def main (arguments : List String) : IO UInt32 :=
  PassageMarkup.carryOut arguments
