import ClusterBalance.Text.Blank
import ClusterBalance.Text.Upper

/-! The log: records of some severity from some module, and the handlers that write them. One
handler writes what is severe enough; a second one may write the debug records of chosen
modules. -/

namespace ClusterBalance.Log

/-- The levels of records. -/
inductive Level where
  | trace
  | debug
  | info
  | success
  | warning
  | error
  | critical
  deriving DecidableEq, Repr

namespace Level

/-- The levels, in ascending order. -/
def all : List Level := [trace, debug, info, success, warning, error, critical]

/-- The name of a level. -/
def name : Level → String
  | trace => "TRACE"
  | debug => "DEBUG"
  | info => "INFO"
  | success => "SUCCESS"
  | warning => "WARNING"
  | error => "ERROR"
  | critical => "CRITICAL"

/-- How severe a level is. -/
def severity : Level → Nat
  | trace => 5
  | debug => 10
  | info => 20
  | success => 25
  | warning => 30
  | error => 40
  | critical => 50

/-- The level of a name in capitals. -/
def ofName? (name : String) : Option Level := all.find? fun l => l.name = name

end Level

/-- What a record is marked with: a level, or a name and a severity of its own. No level has that
name. -/
inductive Mark where
  | level (l : Level)
  | other (name : String) (severity : Nat) (fresh : Level.ofName? name = none)
  deriving DecidableEq, Repr

namespace Mark

instance : Coe Level Mark := ⟨Mark.level⟩

/-- The name of a mark. -/
def name : Mark → String
  | level l => l.name
  | other name .. => name

/-- How severe what is marked is. -/
def severity : Mark → Nat
  | level l => l.severity
  | other _ severity _ => severity

end Mark

/-- A level name that no level has. -/
structure UnknownLevel where
  name : String
  deriving DecidableEq, Repr

/-- The text of the error. -/
def UnknownLevel.message (e : UnknownLevel) : String := "Level '" ++ e.name ++ "' does not exist"

/-- One record. Its module may be unknown. -/
structure Record where
  level : Mark
  source : Option String
  function : String
  message : String
  deriving DecidableEq, Repr

/-- The line that is written for a record. -/
def Record.line (r : Record) : String :=
  r.level.name ++ " " ++ r.source.getD "" ++ ":" ++ r.function ++ " - " ++ r.message

/-- The start of the names of all modules of the program, which scopes may leave out. -/
def packageStart : String := "clusterstats."

/-- Whether a module is in a scope, which is the start of its name. -/
def inScope (source scope : String) : Bool :=
  scope.toList.isPrefixOf source.toList ||
    (!packageStart.toList.isPrefixOf scope.toList &&
      (packageStart ++ scope).toList.isPrefixOf source.toList)

/-- Whether a record of the named level is a debug record of a module in one of the scopes. -/
def acceptsScoped (scopes : List String) (levelName : String) (source : Option String) : Bool :=
  levelName = Level.debug.name && scopes.any (inScope (source.getD ""))

/-- What a handler writes: records of a least level, and with scopes only those that they accept. -/
structure Handler where
  level : Level
  scopes : Option (List String)
  deriving DecidableEq, Repr

/-- Whether a handler writes a record. -/
def Handler.takes (h : Handler) (r : Record) : Bool :=
  h.level.severity ≤ r.level.severity &&
    match h.scopes with
    | none => true
    | some scopes => acceptsScoped scopes r.level.name r.source

/-- The scopes that are not blank, without white space around them. -/
def cleanScopes (scopes : List String) : List String :=
  (scopes.map Text.strip).filter (· ≠ "")

/-- The handlers for a level in any case and some debug scopes. The scopes get a handler of their
own unless the level is that of debugging already. -/
def configure (level : String) (scopes : List String) : Except UnknownLevel (List Handler) :=
  let name := Text.upper level
  match Level.ofName? name with
  | none => .error ⟨name⟩
  | some l =>
    let scopes := cleanScopes scopes
    if scopes.isEmpty || l = .debug then .ok [⟨l, none⟩]
    else .ok [⟨l, none⟩, ⟨.debug, some scopes⟩]

/-- The lines that handlers write for some records, each handler one for each record it takes. -/
def written (handlers : List Handler) (records : List Record) : List String :=
  records.flatMap fun r => (handlers.filter (·.takes r)).map fun _ => r.line

end ClusterBalance.Log
