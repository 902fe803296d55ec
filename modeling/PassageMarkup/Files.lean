/-
Module: PassageMarkup.Files
Layer: Files
Purpose: Reading by path. A file reader says what is found at every path; only what is UTF-8 can be read as a
  text. The reading of a file tree follows a path part by part between slashes, from the working directory
  or, behind a slash in front, from the topmost one.
Imports: none
Main exports: ReadFailure, ReadFailure.message, decodeText, FileReader, Entry, FileTree, Place.follow,
  FileTree.read
-/

namespace PassageMarkup

/-- Why a file cannot be read. -/
inductive ReadFailure where
  /-- No file is there. -/
  | missing
  /-- The path goes on behind a file. -/
  | notDirectory
  /-- The path leads to a directory. -/
  | isDirectory
  /-- The path or one of its parts is too long. -/
  | nameTooLong
  /-- The file does not hold UTF-8. -/
  | notText
  /-- The system gives another reason. -/
  | other (reason : String)
deriving DecidableEq, Repr

/-- The cause in words. -/
def ReadFailure.message : ReadFailure → String
  | .missing => "No such file or directory (os error 2)"
  | .notDirectory => "Not a directory (os error 20)"
  | .isDirectory => "Is a directory (os error 21)"
  | .nameTooLong => "File name too long (os error 36)"
  | .notText => "stream did not contain valid UTF-8"
  | .other reason => reason

/-- The text that bytes hold. -/
def decodeText (bytes : ByteArray) : Except ReadFailure String :=
  match String.fromUTF8? bytes with
  | some text => .ok text
  | none => .error .notText

/-- What reading finds at each path. -/
abbrev FileReader := String → Except ReadFailure ByteArray

/-- What is kept under a name: a file, or a directory of further entries. -/
inductive Entry where
  | file (content : ByteArray)
  | directory (entries : List (String × Entry))

/-- A tree of files: its topmost directory, and the names that lead from there to the working directory. -/
structure FileTree where
  top : List (String × Entry)
  working : List String

/-- Where a path has led. -/
inductive Place where
  | file (content : ByteArray)
  /-- To a directory, with those around it from the inside out. -/
  | directory (entries : List (String × Entry)) (around : List (List (String × Entry)))

/-- The parts of a path between its slashes. -/
def pathParts : List Char → List (List Char)
  | [] => [[]]
  | c :: cs =>
      if c = '/' then [] :: pathParts cs
      else
        match pathParts cs with
        | [] => [[c]]
        | part :: rest => (c :: part) :: rest

/-- The largest number of bytes in a part of a path. -/
def maxPartBytes : Nat := 255

/-- The largest number of bytes in a path. -/
def maxPathBytes : Nat := 4095

/-- Follow one part of a path. Nothing lies behind a file, not even an empty part; otherwise an empty part
and a single dot stay where they are, and two dots lead to the directory around, if there is one. -/
def Place.follow (place : Place) (part : String) : Except ReadFailure Place :=
  match place with
  | .file _ => .error .notDirectory
  | .directory entries around =>
      if part = "" ∨ part = "." then .ok place
      else if part = ".." then
        match around with
        | [] => .ok place
        | outer :: rest => .ok (.directory outer rest)
      else if maxPartBytes < part.utf8ByteSize then .error .nameTooLong
      else
        match entries.lookup part with
        | none => .error .missing
        | some (.file content) => .ok (.file content)
        | some (.directory inner) => .ok (.directory inner (entries :: around))

/-- Where a path leads. -/
def FileTree.find (tree : FileTree) (path : String) : Except ReadFailure Place :=
  if path = "" then .error .missing
  else if maxPathBytes < path.utf8ByteSize then .error .nameTooLong
  else
    let parts := (pathParts path.toList).map String.ofList
    let fromTop := if path.toList.head? = some '/' then parts else tree.working ++ parts
    fromTop.foldlM Place.follow (.directory tree.top [])

/-- The reading of a file tree: only files can be read. -/
def FileTree.read (tree : FileTree) : FileReader := fun path =>
  match tree.find path with
  | .error failure => .error failure
  | .ok (.file content) => .ok content
  | .ok (.directory _ _) => .error .isDirectory

end PassageMarkup
