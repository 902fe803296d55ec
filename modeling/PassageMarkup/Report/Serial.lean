/-
Module: PassageMarkup.Report.Serial
Layer: Report
Purpose: What serialized values hand to a writer, and the writers of text formats. A value may be anything
  that can be serialized at all: its maps may have keys of any kind, and it may refuse to be serialized; so
  a writer can fail. The standard writers write what is data, as JSON or YAML, and fail on everything else.
Imports: Report.Json, Report.Yaml
Main exports: Serial, Data.toSerial, Writers, Serial.toData, Writers.standard
-/
import PassageMarkup.Report.Json
import PassageMarkup.Report.Yaml

namespace PassageMarkup

/-- What a value hands to a writer. -/
inductive Serial where
  | boolean (value : Bool)
  | integer (value : Nat)
  | real (value : Number.Binary64)
  | text (value : String)
  | list (items : List Serial)
  /-- Fields in order, by names that are fixed. -/
  | record (fields : List (String × Serial))
  /-- Values under keys, which are values themselves. -/
  | map (entries : List (Serial × Serial))
  /-- The value gives a reason not to be serialized. -/
  | refusal (reason : String)
deriving Inhabited

mutual

/-- What data hands to a writer. -/
def Data.toSerial : Data → Serial
  | .boolean value => .boolean value
  | .integer value => .integer value
  | .real value => .real value
  | .text value => .text value
  | .list items => .list (itemsToSerial items)
  | .record fields => .record (fieldsToSerial fields)

/-- What the items of a list hand to a writer. -/
def itemsToSerial : List Data → List Serial
  | [] => []
  | item :: rest => item.toSerial :: itemsToSerial rest

/-- What the fields of a record hand to a writer. -/
def fieldsToSerial : List (String × Data) → List (String × Serial)
  | [] => []
  | (name, value) :: rest => (name, value.toSerial) :: fieldsToSerial rest

end

/-- The writers of a report's text formats. Each one gives the text of a value, or says why it has none. -/
structure Writers where
  json : Serial → Except String String
  yaml : Serial → Except String String

/-- The text that a key is. -/
def Serial.key : Serial → Except String String
  | .text value => .ok value
  | _ => .error "key must be a string"

mutual

/-- The data that a value is, or why it is none. -/
def Serial.toData : Serial → Except String Data
  | .boolean value => .ok (.boolean value)
  | .integer value => .ok (.integer value)
  | .real value => .ok (.real value)
  | .text value => .ok (.text value)
  | .list items => return .list (← itemsToData items)
  | .record fields => return .record (← fieldsToData fields)
  | .map entries => return .record (← entriesToData entries)
  | .refusal reason => .error reason

/-- The data that the items of a list are. -/
def itemsToData : List Serial → Except String (List Data)
  | [] => .ok []
  | item :: rest => return (← item.toData) :: (← itemsToData rest)

/-- The data that the fields of a record are. -/
def fieldsToData : List (String × Serial) → Except String (List (String × Data))
  | [] => .ok []
  | (name, value) :: rest => return (name, ← value.toData) :: (← fieldsToData rest)

/-- The fields that the entries of a map make. -/
def entriesToData : List (Serial × Serial) → Except String (List (String × Data))
  | [] => .ok []
  | (key, value) :: rest => return (← key.key, ← value.toData) :: (← entriesToData rest)

end

/-- JSON and YAML of what is data. -/
def Writers.standard : Writers where
  json value := Data.toJson <$> value.toData
  yaml value := Data.toYaml <$> value.toData

end PassageMarkup
