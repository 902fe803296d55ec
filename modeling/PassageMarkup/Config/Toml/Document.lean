/-
Module: PassageMarkup.Config.Toml.Document
Layer: Config
Purpose: TOML documents: lines that give a value to a key, or name the table to which the lines below
  belong. Keys have a bounded number of parts, and values nest up to a fixed depth.
Imports: Config.Toml.Moment, Config.Toml.Scalar, Config.Toml.Table
Main exports: readKeys?, readValue?, readLine?, readDocument?
-/
import PassageMarkup.Config.Toml.Moment
import PassageMarkup.Config.Toml.Scalar
import PassageMarkup.Config.Toml.Table

namespace PassageMarkup.Toml

open Text

/-- Whether a character can be part of a bare key. -/
def isKeyChar (c : Char) : Bool :=
  c.isAlphanum || c == '_' || c == '-'

/-- Read one part of a key: bare, or a string on one line. -/
def readKey? (cs : List Char) : Option (String × List Char) :=
  match cs with
  | '"' :: rest =>
      (readBasic? (rest.length + 1) rest).map fun (key, left) => (String.ofList key, left)
  | '\x27' :: rest => (readPlain? rest).map fun (key, left) => (String.ofList key, left)
  | _ =>
      let key := cs.takeWhile isKeyChar
      if key.isEmpty then none else some (String.ofList key, cs.dropWhile isKeyChar)

/-- The number of parts that a key may have, and the depth to which values may nest. -/
def maxDepth : Nat := 79

/-- Read a key of at most `parts` parts with dots between them, and the spaces behind it. -/
def readParts? : (parts : Nat) → List Char → Option (List String × List Char)
  | 0, _ => none
  | parts + 1, cs => do
      let (key, rest) ← readKey? (skipSpace cs)
      match skipSpace rest with
      | '.' :: later => do
          let (keys, left) ← readParts? parts later
          some (key :: keys, left)
      | left => some ([key], left)

/-- Read a key. -/
def readKeys? (cs : List Char) : Option (List String × List Char) :=
  readParts? maxDepth cs

/-- Read a key, an equals sign and a value. -/
def readPair? (value? : List Char → Option (Setting × List Char)) (cs : List Char) :
    Option ((List String × Setting) × List Char) := do
  let (keys, rest) ← readKeys? cs
  let rest ← expect? '=' rest
  let (value, left) ← value? (skipSpace rest)
  some ((keys, value), left)

/-- Read the items of an array behind its opening bracket. -/
def readItems? (value? : List Char → Option (Setting × List Char)) :
    (steps : Nat) → List Char → Option (List Setting × List Char)
  | 0, _ => none
  | steps + 1, cs =>
      match skipLines cs with
      | ']' :: left => some ([], left)
      | start => do
          let (item, rest) ← value? start
          match skipLines rest with
          | ']' :: left => some ([item], left)
          | ',' :: more => do
              let (items, left) ← readItems? value? steps more
              some (item :: items, left)
          | _ => none

/-- Read the pairs of an inline table, at least one, up to its closing brace. -/
def readPairs? (value? : List Char → Option (Setting × List Char)) :
    (steps : Nat) → Table → List Char → Option (Table × List Char)
  | 0, _, _ => none
  | steps + 1, table, cs => do
      let ((keys, value), rest) ← readPair? value? cs
      let table ← table.put? keys value
      match skipSpace rest with
      | '\x7d' :: left => some (table, left)
      | ',' :: more => readPairs? value? steps table more
      | _ => none

/-- Read an inline table behind its opening brace. -/
def readInline? (value? : List Char → Option (Setting × List Char)) (cs : List Char) :
    Option (Setting × List Char) :=
  match skipSpace cs with
  | '\x7d' :: left => some (.table [], left)
  | start =>
      (readPairs? value? (start.length + 1) ⟨false, false, []⟩ start).map fun (table, left) =>
        (.table table.toFields, left)

/-- Read a value in which arrays and inline tables nest to a depth of at most `depth`. -/
def readValue? : (depth : Nat) → List Char → Option (Setting × List Char)
  | 0, cs =>
      match cs with
      | '[' :: _ => none
      | '\x7b' :: _ => none
      | '"' :: _ | '\x27' :: _ => (readString? cs).map fun (text, left) => (.text text, left)
      | _ => readScalar? cs
  | depth + 1, cs =>
      match cs with
      | '[' :: rest =>
          (readItems? (readValue? depth) (rest.length + 1) rest).map fun (items, left) =>
            (.list items, left)
      | '\x7b' :: rest => readInline? (readValue? depth) rest
      | '"' :: _ | '\x27' :: _ => (readString? cs).map fun (text, left) => (.text text, left)
      | _ => readScalar? cs

/-- A document while it is read: all its tables, and the path of the one to which lines belong. -/
structure Document where
  root : Table
  current : List String

/-- Give a value to a key of the current table. -/
def Document.put? (document : Document) (keys : List String) (value : Setting) :
    Option Document := do
  let root ← descend false document.current (·.put? keys value) document.root
  some { document with root }

/-- Read a header behind its brackets, up to the closing ones. -/
def readHeader? (closing : List Char) (cs : List Char) : Option (List String × List Char) := do
  let (keys, rest) ← readKeys? cs
  if closing.isPrefixOf rest then some (keys, rest.drop closing.length) else none

/-- Read one line, and give the document with what the line says. -/
def readLine? (document : Document) (cs : List Char) : Option (Document × List Char) :=
  match skipSpace cs with
  | '[' :: '[' :: rest => do
      let (path, left) ← readHeader? [']', ']'] rest
      let root ← document.root.openElement? path
      some (⟨root, path⟩, ← lineEnd? left)
  | '[' :: rest => do
      let (path, left) ← readHeader? [']'] rest
      let root ← document.root.openTable? path
      some (⟨root, path⟩, ← lineEnd? left)
  | start =>
      match lineEnd? start with
      | some left => some (document, left)
      | none => do
          let ((keys, value), left) ← readPair? (readValue? maxDepth) start
          let document ← document.put? keys value
          some (document, ← lineEnd? left)

/-- Read the lines of a document. -/
def readLines? : (steps : Nat) → Document → List Char → Option Document
  | 0, document, cs => if cs.isEmpty then some document else none
  | steps + 1, document, cs =>
      if cs.isEmpty then some document
      else do
        let (next, left) ← readLine? document cs
        readLines? steps next left

/-- Drop a byte order mark in front. -/
def dropMark : List Char → List Char
  | c :: cs => if c.toNat = 0xFEFF then cs else c :: cs
  | [] => []

/-- The settings of a document, or nothing if it is malformed or only a moment. -/
def readDocument? (text : String) : Option (List (String × Setting)) := do
  let cs := dropMark text.toList
  let document ← readLines? (cs.length + 1) ⟨⟨false, false, []⟩, []⟩ cs
  match ← settle? (.table document.root.toFields) with
  | .table fields => some fields
  | _ => none

end PassageMarkup.Toml
