import ClusterBalance.Document.Json.Reader
import ClusterBalance.Document.Toml.Reader
import ClusterBalance.FileName
import ClusterBalance.Settings

/-! Settings files: a table of a JSON or TOML document, by the type that the file's name ends in. -/

namespace ClusterBalance.Settings

/-- The table of a settings file that holds the settings. -/
def tableName : String := "clusterstats"

/-- The settings in the fields of a document. -/
def ofFields [Limits] (fields : List (LooseText × Document)) : Except Refusal Settings :=
  ofDocument (Document.findD tableName (.object []) fields)

/-- What was read from a text, where a text that breaks the grammar is refused as given. -/
def accept {β : Type} (malformed : Refusal) : Except Document.ReadError β → Except Refusal β
  | .ok x => .ok x
  | .error .malformed => .error malformed
  | .error cause => .error (.unreadable cause)

/-- The settings of a TOML text. -/
def ofToml [Limits] (text : String) : Except Refusal Settings := do
  ofFields (← accept .malformedToml (Document.Toml.read text))

/-- The settings of a JSON text. -/
def ofJson [Limits] (file text : String) : Except Refusal Settings := do
  match ← accept .malformedJson (Document.Json.read Document.Json.lenient text) with
  | .object fields => ofFields fields
  | _ => throw (.notObjectFile file)

/-- The text of a file that has to be there. -/
def requireText (file : String) (text? : Option String) : Except Refusal String :=
  match FileName.fault? file, text? with
  | some fault, _ => .error (.badName fault)
  | none, some text => .ok text
  | none, none => .error (.missingFile file)

/-- How the text of a settings file is read, by the type of the file. -/
def readerFor [Limits] (path : String) : Except Refusal (String → Except Refusal Settings) :=
  let type := FileName.type path
  let kind := Text.asciiLower type
  if kind = ".toml" then .ok ofToml
  else if kind = ".json" then .ok (ofJson (FileName.plain path))
  else .error (.unknownType (if type = "" then FileName.last path else type))

/-- The settings of a file with the given path, whose text is there if the file is. -/
def ofFile [Limits] (path : String) (text? : Option String) : Except Refusal Settings := do
  let reader ← readerFor path
  reader (← requireText (FileName.plain path) text?)

/-- The settings of a file that is there, whose text is there if its bytes make one. -/
def ofExistingFile [Limits] (path : String) : Option String → Except Refusal Settings
  | some text => ofFile path (some text)
  | none => do
    let _ ← readerFor path
    throw .notText

end ClusterBalance.Settings
