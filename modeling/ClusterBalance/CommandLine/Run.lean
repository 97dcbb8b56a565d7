import ClusterBalance.Cluster.Snapshot
import ClusterBalance.CommandLine.Options
import ClusterBalance.Fault
import ClusterBalance.Text.Terminal

/-! A run of the program on a command line: from the arguments to what is printed, what is logged
and the exit status. -/

namespace ClusterBalance.CommandLine

/-- What a run works with: the name of the program and the files in reach. -/
structure Environment where
  program : String
  entry : String → Entry

/-- What a run leaves behind. A fault that the program does not expect escapes. -/
structure Outcome where
  exit : Nat
  output : String := ""
  errors : String := ""
  escaped : Option Fault := none
  deriving DecidableEq, Repr

/-- How the program or its command is used. -/
inductive Usage where
  | program
  | stats
  deriving DecidableEq, Repr

/-- How a usage is called. -/
def Usage.command (program : String) : Usage → String
  | .program => program
  | .stats => program ++ " " ++ statsCommand

/-- The arguments that a usage takes. -/
def Usage.arguments : Usage → String
  | program => "[OPTIONS] COMMAND [ARGS]..."
  | stats => "[OPTIONS] SNAPSHOT"

/-- The line that shows a usage. -/
def Usage.line (u : Usage) (program : String) : String :=
  "Usage: " ++ u.command program ++ " " ++ u.arguments ++ "\n"

/-- What is said when help is asked for. -/
def Usage.help (u : Usage) (program : String) : String :=
  u.line program ++ "\n" ++
    match u with
    | .program =>
      "  clusterstats CLI.\n\n" ++
      "  Measure how evenly resource load, replicas and leadership are spread across\n" ++
      "  the brokers of a cluster snapshot.\n\nOptions:\n" ++
      "  -v, --verbose      Enable verbose logging\n" ++
      "  -c, --config FILE  Settings file (.toml or .json)\n" ++
      "  --help             Show this message and exit.\n\nCommands:\n" ++
      "  stats  Compute balance statistics of a cluster snapshot.\n"
    | .stats =>
      "  Compute balance statistics of a cluster snapshot.\n\nOptions:\n" ++
      "  -o, --output [table|json|text]  Output format\n" ++
      "  -b, --balance-percentage RESOURCE=VALUE\n" ++
      "                                  Override a resource balance percentage (e.g.\n" ++
      "                                  cpu=1.2)\n" ++
      "  -t, --capacity-threshold RESOURCE=VALUE\n" ++
      "                                  Override a resource capacity threshold (e.g.\n" ++
      "                                  nw_out=0.7)\n" ++
      "  --help                          Show this message and exit.\n"

namespace Outcome

/-- The line that reports an error, without the control sequences of what was given. -/
def errorLine (message : String) : String := "Error: " ++ Text.plain message ++ "\n"

/-- The outcome of a run that a fault ends. -/
def escape (fault : Fault) : Outcome where
  exit := 1
  escaped := some fault

/-- The outcome of a command line that is refused. A path that cannot be looked for ends the run. -/
def usage (program : String) (u : Usage) (fault : UsageFault) : Outcome :=
  match fault.badPath? with
  | some bad => escape bad.fault
  | none =>
    { exit := 2
      errors :=
        (if fault.showsUsage then
          u.line program ++ "Try '" ++ u.command program ++ " --help' for help.\n\n"
        else "") ++ errorLine fault.message }

/-- The outcome of a run that fails with a message. -/
def failure (message : String) : Outcome where
  exit := 1
  errors := errorLine message

/-- The outcome of a run that only gives help. -/
def help (program : String) (u : Usage) : Outcome where
  exit := 0
  output := u.help program

/-- The outcome of a run without arguments. -/
def noArguments (program : String) : Outcome where
  exit := 2
  errors := Usage.program.help program

/-- Puts the lines of a log in front of the errors. -/
def logged (o : Outcome) (handlers : List Log.Handler) (records : List Log.Record) : Outcome :=
  { o with errors := Format.unlines (Log.written handlers records) ++ o.errors }

end Outcome

/-- The program's own options and what follows them. -/
structure ProgramLine where
  verbose : Bool
  /-- The settings file, by its path, and its text, if it has one. -/
  config : Option (String × Option String)
  rest : List String

/-- Reads the program's own options. -/
def readProgramLine (env : Environment) (args : List String) : Except Outcome ProgramLine :=
  match readArguments programOptions false args with
  | .error fault => .error (.usage env.program .program (.argument fault))
  | .ok a =>
    let verbose := !(a.values .verbose).isEmpty
    if (a.values .help).isEmpty then
      match (a.values .config).getLast? with
      | none => .ok ⟨verbose, none, a.operands⟩
      | some path =>
        match fileText? env.entry path with
        | .ok text? => .ok ⟨verbose, some (path, text?), a.operands⟩
        | .error fault =>
          .error (.usage env.program .program (.invalidValue "'--config' / '-c'" fault))
    else .error (.help env.program .program)

/-- The arguments of the command that is asked for. What stands in place of a command is read as
options first, as far as it looks like them. -/
def commandArguments (env : Environment) : List String → Except Outcome (List String)
  | [] => .error (.usage env.program .program .noCommand)
  | command :: rest =>
    if command = statsCommand then .ok rest
    else do
      let _ ← readProgramLine env (command :: rest)
      let similar := Text.suggestions [statsCommand] command
      throw (.usage env.program .program (.noSuchCommand command similar))

/-- The settings that are asked for. -/
def readSettings [Limits] : Option (String × Option String) → Except Outcome Settings
  | none => .ok {}
  | some (path, text?) =>
    match Settings.ofExistingFile path text? with
    | .ok settings => .ok settings
    | .error refusal =>
      let fault := refusal.fault
      if fault.errorClass.isInvalidValue ∨ fault.errorClass = .missingFile then
        .error (.failure
          ("Invalid settings file " ++ FileName.plain path ++ ": " ++ fault.message))
      else .error (.escape fault)

/-- The handlers of the log. -/
def readHandlers (settings : Settings) (verbose : Bool) : Except Outcome (List Log.Handler) :=
  match Log.configure (if verbose then "DEBUG" else settings.logLevel) settings.debugScopes with
  | .ok handlers => .ok handlers
  | .error unknown => .error (.escape unknown.fault)

/-- The request in the command's arguments. -/
def readStatsLine (env : Environment) (args : List String) : Except Outcome StatsRequest :=
  match readArguments statsOptions true args with
  | .error fault => .error (.usage env.program .stats (.argument fault))
  | .ok a =>
    if (a.values .help).isEmpty then
      match readRequest env.entry a with
      | .ok request => .ok request
      | .error fault => .error (.usage env.program .stats fault)
    else .error (.help env.program .stats)

/-- The constraint of the settings with the overrides of the command line. -/
def effectiveConstraint [Limits] (settings : Settings) (overrides : Constraint.Overrides Float) :
    Except Outcome (Constraint Float) :=
  match settings.constraint.override overrides with
  | .ok constraint => .ok constraint
  | .error refusal =>
    let fault := refusal.fault
    if fault.errorClass.isInvalidValue then
      .error (.failure ("Invalid balancing constraint: " ++ fault.message))
    else .error (.escape fault)

/-- A record of the command itself. -/
def commandRecord (message : String) : Log.Record where
  level := Log.Level.debug
  source := some "clusterstats.cli.main"
  function := "stats"
  message := message

/-- How a fault of the snapshot or of its statistics ends a run. -/
def rejection (handlers : List Log.Handler) (path : String) (fault : Fault) : Outcome :=
  if fault.errorClass.isStatistical then .failure fault.message
  else if fault.errorClass.isInvalidValue ∨ fault.errorClass = .missingKey then
    (Outcome.failure ("Invalid cluster snapshot " ++ path ++ ": " ++ fault.message)).logged
      handlers [commandRecord ("Rejected snapshot " ++ path ++ ": " ++ fault.literal)]
  else .escape fault

/-- What is left to do when everything that was given is accepted. -/
structure Job where
  handlers : List Log.Handler
  constraint : Constraint Float
  format : Format
  path : String
  cluster : Cluster Float

/-- The job of a command line, or the outcome of a run that gets no further. -/
def prepare [Limits] (env : Environment) (args : List String) : Except Outcome Job := do
  if args.isEmpty then throw (.noArguments env.program)
  let line ← readProgramLine env args
  let commandArgs ← commandArguments env line.rest
  let settings ← readSettings line.config
  let handlers ← readHandlers settings line.verbose
  let request ← readStatsLine env commandArgs
  let constraint ← effectiveConstraint settings request.overrides
  match Cluster.ofFile request.path request.text? with
  | .ok cluster => return ⟨handlers, constraint, request.format, request.path, cluster⟩
  | .error refusal => throw (rejection handlers request.path refusal.fault)

/-- The report that a job asks for. -/
def Job.measure (job : Job) : Except StatsError (Report Float) :=
  job.cluster.measure job.constraint

/-- The outcome of a job, from its report and the time that this took. -/
def Job.finish (job : Job) (result : Except StatsError (Report Float)) (elapsed : String) :
    Outcome :=
  let outcome :=
    match result with
    | .ok report => { exit := 0, output := job.format.render report : Outcome }
    | .error e => rejection job.handlers job.path e.fault
  outcome.logged job.handlers
    (job.cluster.measureRecords job.constraint ++
      [commandRecord (durationMessage "populate" elapsed)])

/-- A run of the program. -/
def run [Limits] (env : Environment) (args : List String) (elapsed : String) : Outcome :=
  match prepare env args with
  | .ok job => job.finish job.measure elapsed
  | .error outcome => outcome

end ClusterBalance.CommandLine
