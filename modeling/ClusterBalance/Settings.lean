import ClusterBalance.Constraint
import ClusterBalance.FileName

/-! The settings of the program: how it logs, and the constraint it judges a cluster by. -/

namespace ClusterBalance

/-- The settings. -/
structure Settings where
  logLevel : String := "INFO"
  debugScopes : List String := []
  colorize : Bool := false
  constraint : Constraint Float := Constraint.default
  deriving BEq

namespace Settings

/-- Why settings are refused. -/
inductive Refusal where
  | missingFile (file : String)
  | badName (fault : FileName.Fault)
  | unknownType (type : String)
  | malformedJson
  | malformedToml
  | notText
  | unreadable (cause : Document.ReadError)
  | noLiteral (cause : Document.LiteralError)
  | notObjectFile (file : String)
  | noMember (kind : String)
  | constraintNotTable (value : Document)
  | scopesNotStrings (value : Document)
  | constraint (refusal : Constraint.Refusal)

namespace Refusal

/-- The class of a refusal. -/
def errorClass : Refusal → ErrorClass
  | missingFile _ => .missingFile
  | badName fault => fault.errorClass
  | unreadable (.tooDeep _) => .tooDeep
  | noLiteral cause => cause.errorClass
  | malformedJson => .malformedJson
  | malformedToml => .malformedToml
  | noMember _ => .missingMember
  | constraint refusal => refusal.errorClass
  | _ => .invalidValue

/-- The text of a refusal. -/
def message : Refusal → String
  | missingFile file => "[Errno 2] No such file or directory: " ++ Text.quoted file
  | badName fault => fault.message
  | unknownType type => "Unsupported settings file type: " ++ type
  | malformedJson => "malformed JSON"
  | malformedToml => "malformed TOML"
  | notText => "malformed text"
  | unreadable cause => cause.message
  | noLiteral cause => cause.message
  | notObjectFile file => "Settings file " ++ file ++ " must contain a JSON object"
  | noMember kind => "'" ++ kind ++ "' object has no attribute 'get'"
  | constraintNotTable value => "'balancing_constraint' must be a table, got " ++ value.literal
  | scopesNotStrings value => "Expected a string or list of strings, got " ++ value.literal
  | constraint refusal => refusal.message

/-- The values that the text of a refusal quotes. -/
def quotes : Refusal → List Document
  | constraintNotTable value | scopesNotStrings value => [value]
  | constraint refusal => refusal.quotes
  | _ => []

end Refusal

/-- The text of a value, as it is shown. -/
def displayOf [Limits] (value : Document) : Except Refusal String :=
  match value.wording? with
  | .ok text => .ok text.shown
  | .error cause => .error (.noLiteral cause)

/-- The debug scopes of a value: one text, or a list of values. -/
def scopesOf [Limits] : Document → Except Refusal (List String)
  | .null => .ok []
  | .string s => .ok [s.shown]
  | .list items => items.mapM displayOf
  | other => .error (.scopesNotStrings other)

/-- The value of the constraint has to be a table if it is there at all. -/
def requireTable : Document → Except Refusal Unit
  | .null | .object _ => .ok ()
  | other => .error (.constraintNotTable other)

/-- The constraint of a value that may be absent. -/
def constraintOf : Document → Except Refusal (Constraint Float)
  | .null => .ok Constraint.default
  | value =>
    match Constraint.ofDocument value with
    | .ok c => .ok c
    | .error refusal => .error (.constraint refusal)

/-- The settings that a document describes; what it leaves out has its default. -/
def ofDocument [Limits] : Document → Except Refusal Settings
  | .object fields => do
    let table := Document.findD "balancing_constraint" .null fields
    requireTable table
    let logLevel ← displayOf (Document.findD "log_level" (.string "INFO") fields)
    let debugScopes ← scopesOf (Document.findD "log_debug_scopes" .null fields)
    let constraint ← constraintOf table
    return {
      logLevel := Text.upper logLevel
      debugScopes
      colorize := (Document.findD "log_colorize" (.bool false) fields).isSet
      constraint }
  | other => .error (.noMember other.kindName)

end Settings

end ClusterBalance
