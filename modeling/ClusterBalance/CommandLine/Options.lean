import ClusterBalance.CommandLine.Arguments
import ClusterBalance.CommandLine.Summary
import ClusterBalance.FileName
import ClusterBalance.Settings.File

/-! The options of the program and of its command, and the reading of their values. -/

namespace ClusterBalance.CommandLine

/-- What the file system has under a name. The bytes of a binary file make no text. -/
inductive Entry where
  | absent
  | directory
  | file (text : String)
  | binary

/-- The options of the program. -/
inductive ProgramOption where
  | verbose
  | config
  | help
  deriving DecidableEq, Repr

/-- The options of the program, as they are written. -/
def programOptions : List (OptionSpec ProgramOption) :=
  [⟨.verbose, "verbose", some 'v', false⟩, ⟨.config, "config", some 'c', true⟩,
    ⟨.help, "help", none, false⟩]

/-- The options of the command. -/
inductive StatsOption where
  | output
  | percentage
  | threshold
  | help
  deriving DecidableEq, Repr

/-- The options of the command, as they are written. -/
def statsOptions : List (OptionSpec StatsOption) :=
  [⟨.output, "output", some 'o', true⟩, ⟨.percentage, "balance-percentage", some 'b', true⟩,
    ⟨.threshold, "capacity-threshold", some 't', true⟩, ⟨.help, "help", none, false⟩]

/-- The name of the command. -/
def statsCommand : String := "stats"

/-- Why a value of an option or an operand is refused. -/
inductive ValueFault where
  | badPath (fault : FileName.Fault)
  | noFile (path : String)
  | isDirectory (path : String)
  | noFormat (name : String)
  | noPair (item : String)
  | constraint (refusal : Constraint.Refusal)

/-- The text of a refused value. -/
def ValueFault.message : ValueFault → String
  | badPath fault => fault.message
  | noFile path => "File " ++ Text.quoted path ++ " does not exist."
  | isDirectory path => "File " ++ Text.quoted path ++ " is a directory."
  | noFormat name =>
    Text.quoted name ++ " is not one of " ++
      ", ".intercalate (Format.all.map fun f => Text.quoted f.name) ++ "."
  | noPair item => "expected RESOURCE=VALUE, got " ++ Text.quoted item
  | constraint refusal => refusal.message

/-- Why a command line is refused. A command that is not there comes with the commands that may
have been meant. -/
inductive UsageFault where
  | argument (fault : ArgumentFault)
  | noCommand
  | noSuchCommand (name : String) (similar : List String)
  | missingOperand (name : String)
  | extraOperands (operands : List String)
  | invalidValue (name : String) (fault : ValueFault)

/-- The text of a refused command line. -/
def UsageFault.message : UsageFault → String
  | argument fault => fault.message
  | noCommand => "Missing command."
  | noSuchCommand name similar =>
    "No such command " ++ Text.quoted name ++ "." ++ alternatives similar
  | missingOperand name => "Missing argument '" ++ name ++ "'."
  | extraOperands operands =>
    "Got unexpected extra argument" ++ (if operands.length = 1 then "" else "s") ++ " (" ++
      " ".intercalate operands ++ ")"
  | invalidValue name fault => "Invalid value for " ++ name ++ ": " ++ fault.message

/-- Whether the usage is shown with a refusal. A missing or a needless value goes without it. -/
def UsageFault.showsUsage : UsageFault → Bool
  | argument (.needsValue _) | argument (.takesNoValue _) => false
  | _ => true

/-- The path that could not even be looked for, if that is why a command line is refused. -/
def UsageFault.badPath? : UsageFault → Option FileName.Fault
  | invalidValue _ (.badPath fault) => some fault
  | _ => none

/-- The text of a file, if its bytes make one. There is no file under a path that is too long. -/
def fileText? (entry : String → Entry) (path : String) : Except ValueFault (Option String) :=
  match FileName.fault? path, entry path with
  | some .nullCharacter, _ => .error (.badPath .nullCharacter)
  | some (.tooLong _), _ | none, .absent => .error (.noFile path)
  | none, .directory => .error (.isDirectory path)
  | none, .file text => .ok (some text)
  | none, .binary => .ok none

/-- A pair `NAME=VALUE`. The value is read before the name is looked up. -/
def readPair (item : String) : Except ValueFault (Resource × Float) :=
  match splitValue item with
  | (_, none) => .error (.noPair item)
  | (name, some number) =>
    match Decimal.read? number with
    | none => .error (.constraint (.unreadable number))
    | some x =>
      match Constraint.resourceNamed name with
      | .ok r => .ok (r, x)
      | .error refusal => .error (.constraint refusal)

/-- The values of some pairs. Of two for one resource the later counts. -/
def readPairs (items : List String) : Except ValueFault (PerResource (Option Float)) :=
  items.foldlM
    (fun values item => do
      let (r, x) ← readPair item
      return values.set r (some x))
    (PerResource.replicate none)

/-- The form of output that is asked for: the last one, or the table. -/
def readFormat (names : List String) : Except ValueFault Format :=
  match names.getLast? with
  | none => .ok .table
  | some name =>
    match Format.ofName? name with
    | some f => .ok f
    | none => .error (.noFormat name)

/-- What the command is to do. -/
structure StatsRequest where
  format : Format
  overrides : Constraint.Overrides Float
  path : String
  text? : Option String

/-- How an option is called in messages. -/
def StatsOption.title : StatsOption → String
  | output => "'--output' / '-o'"
  | percentage => "'--balance-percentage' / '-b'"
  | threshold => "'--capacity-threshold' / '-t'"
  | help => "'--help'"

/-- The value of a parameter, or a refusal that names it. -/
def named {β : Type} (name : String) : Except ValueFault β → Except UsageFault β
  | .ok x => .ok x
  | .error fault => .error (.invalidValue name fault)

/-- Checks the values of one option of the command. -/
def checkOption (a : Arguments StatsOption) (option : StatsOption) : Except UsageFault Unit :=
  let values := a.values option
  match option with
  | .output => named option.title (readFormat values) >>= fun _ => .ok ()
  | .percentage | .threshold => named option.title (readPairs values) >>= fun _ => .ok ()
  | .help => .ok ()

/-- The request of the command's arguments. The options are checked in the order in which they
first appear, and then the operand. -/
def readRequest (entry : String → Entry) (a : Arguments StatsOption) :
    Except UsageFault StatsRequest := do
  a.kinds.forM (checkOption a)
  let format ← named StatsOption.output.title (readFormat (a.values .output))
  let percentage ← named StatsOption.percentage.title (readPairs (a.values .percentage))
  let threshold ← named StatsOption.threshold.title (readPairs (a.values .threshold))
  match a.operands with
  | [] => throw (.missingOperand "SNAPSHOT")
  | path :: extra =>
    let text? ← named "'SNAPSHOT'" (fileText? entry path)
    if extra.isEmpty then return ⟨format, ⟨percentage, threshold⟩, FileName.plain path, text?⟩
    else throw (.extraOperands extra)

end ClusterBalance.CommandLine
