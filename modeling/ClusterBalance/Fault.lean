import ClusterBalance.Claim.Broker
import ClusterBalance.Document.Json.Writer
import ClusterBalance.Log.Query
import ClusterBalance.Report.Render
import ClusterBalance.Settings
import ClusterBalance.Statistics.BandQuery
import ClusterBalance.Statistics.Notice
import ClusterBalance.Statistics.Query

/-! Errors of all kinds in one form, as they are reported: their class and their text. -/

namespace ClusterBalance

/-- An error as it is reported. That of a degenerate cluster names the quantity. -/
structure Fault where
  errorClass : ErrorClass
  message : String
  quantity : Option String := none
  deriving DecidableEq, Repr

/-- The text of a fault in a log: its class and, in quotes, its message. A missing key is in quotes
already. -/
def Fault.literal (f : Fault) : String :=
  let argument := if f.errorClass = .missingKey then f.message else Text.quoted f.message
  f.errorClass.name ++ "(" ++ argument ++ ")"

/-- A value without a literal text. -/
def Document.LiteralError.fault (e : Document.LiteralError) : Fault :=
  ⟨e.errorClass, e.message, none⟩

section Quoting

variable [Limits]

/-- A fault whose text quotes some values. The first of them that has no literal text is the fault
itself. -/
def Fault.quoting (values : List Document) (f : Fault) : Fault :=
  match values.mapM Document.literal? with
  | .ok _ => f
  | .error e => e.fault

/-- A refused snapshot. -/
def SnapshotError.fault (e : SnapshotError) : Fault :=
  .quoting e.quotes ⟨e.errorClass, e.message, none⟩

/-- A refused constraint. -/
def Constraint.Refusal.fault (e : Constraint.Refusal) : Fault :=
  .quoting e.quotes ⟨e.errorClass, e.message, none⟩

/-- Refused settings. -/
def Settings.Refusal.fault (e : Settings.Refusal) : Fault :=
  .quoting e.quotes ⟨e.errorClass, e.message, none⟩

end Quoting

/-- A path that is that of no file. -/
def FileName.Fault.fault (e : FileName.Fault) : ClusterBalance.Fault :=
  ⟨e.errorClass, e.message, none⟩

/-- A wrong use of a value. -/
def Misuse.fault (e : Misuse) : Fault where
  errorClass :=
    match e with
    | .noMember .. => .missingMember
    | _ => .wrongType
  message := e.message

/-- A refused claim. -/
def ClaimError.fault [Limits] : ClaimError → Fault
  | .misuse cause => cause.fault
  | .noLiteral cause => cause.fault
  | e => .quoting e.quotes ⟨.invalidValue, e.message, none⟩

/-- A question without an answer. -/
def QueryError.fault [Limits] : QueryError → Fault
  | e@(.unknownBroker _) => ⟨.missingKey, e.message, none⟩
  | .claim cause => cause.fault
  | .misuse cause => cause.fault
  | .noLiteral cause => cause.fault
  | e => ⟨.invalidValue, e.message, none⟩

/-- Arithmetic that fails. -/
def ArithmeticError.fault (e : ArithmeticError) : Fault := ⟨e.errorClass, e.message, none⟩

/-- Statistics that are not there. -/
def StatsError.fault (e : StatsError) : Fault where
  errorClass := e.errorClass
  message := e.message
  quantity :=
    match e with
    | .degenerate quantity => some quantity.text
    | _ => none

/-- Statistics that are not given. -/
def StatsQueryError.fault : StatsQueryError → Fault
  | .stats cause => cause.fault
  | .misuse cause => cause.fault

/-- A band of which it cannot be said what lies in it. -/
def BandError.fault : BandError → Fault
  | .arithmetic cause => cause.fault
  | .misuse cause => cause.fault

/-- A notice that cannot be made. -/
def NoticeError.fault (e : NoticeError) : Fault := ⟨e.errorClass, e.message, none⟩

/-- A statistic that is not there yet. -/
def Unpublished.fault (e : Unpublished) : Fault := ⟨.missingKey, e.message, none⟩

/-- A level that is not there. -/
def Log.UnknownLevel.fault (e : Log.UnknownLevel) : Fault := ⟨.invalidValue, e.message, none⟩

/-- A log that is not set up. -/
def Log.QueryError.fault : Log.QueryError → Fault
  | .unknownLevel cause => cause.fault
  | .misuse cause => cause.fault

/-- A document that cannot be written. -/
def Document.Json.WriteError.fault (e : Document.Json.WriteError) : Fault :=
  ⟨.wrongType, e.message, none⟩

end ClusterBalance
