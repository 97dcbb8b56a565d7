import ClusterBalance.Document.Literal
import ClusterBalance.Document.Number
import ClusterBalance.ErrorClass
import ClusterBalance.LoadVector

/-! The constraint under which a cluster counts as balanced: for each resource a balance percentage,
which sets the width of the balanced band, and a capacity threshold. -/

namespace ClusterBalance

/-- Balance percentages and capacity thresholds. -/
structure Constraint (α : Type) where
  percentage : PerResource α
  threshold : PerResource α
  deriving BEq

namespace Constraint

/-- Why values make no constraint. -/
inductive Refusal where
  | noMember (kind : String)
  | notMapping (part : String)
  | notNumeric (part : String) (key : LooseText) (value : Document)
  | unknownResource (name : LooseText)
  | tooLarge
  | unreadable (text : LooseText)
  | noNumber (kind : String)
  | percentageTooLow (resource : Resource) (value : Float)
  | thresholdOutside (resource : Resource) (value : Float)

namespace Refusal

/-- The class of a refusal. -/
def errorClass : Refusal → ErrorClass
  | noMember _ => .missingMember
  | tooLarge => .overflow
  | noNumber _ => .wrongType
  | _ => .invalidValue

/-- The text of a refusal. -/
def message : Refusal → String
  | noMember kind => "'" ++ kind ++ "' object has no attribute 'get'"
  | notMapping part => "'" ++ part ++ "' must be a mapping of resource to number"
  | notNumeric part key value =>
    "'" ++ part ++ "." ++ key.shown ++ "' must be numeric, got " ++ value.literal
  | unknownResource name => "Unknown resource: " ++ name.quoted
  | tooLarge => ArithmeticError.wholeTooLarge.message
  | unreadable text => "could not convert string to float: " ++ text.quoted
  | noNumber kind => "float() argument must be a string or a real number, not '" ++ kind ++ "'"
  | percentageTooLow resource value =>
    "Balance percentage for " ++ resource.wireName ++ " must be greater than 1.0, got " ++
      Decimal.plain.write value
  | thresholdOutside resource value =>
    "Capacity threshold for " ++ resource.wireName ++ " must be within (0, 1], got " ++
      Decimal.plain.write value

/-- The values that the text of a refusal quotes. -/
def quotes : Refusal → List Document
  | notNumeric _ _ value => [value]
  | _ => []

end Refusal

/-- The values where nothing else is said. -/
def default : Constraint Float where
  percentage := PerResource.replicate 1.1
  threshold := { cpu := 0.7, networkIn := 0.8, networkOut := 0.8, disk := 0.8 }

/-- Whether a balance percentage is admitted. -/
def admitsPercentage (x : Float) : Bool := x > 1.0

/-- Whether a capacity threshold is admitted. -/
def admitsThreshold (x : Float) : Bool := 0.0 < x && x ≤ 1.0

/-- A constraint of admitted values. The percentages are judged first. -/
def make (percentage threshold : PerResource Float) : Except Refusal (Constraint Float) :=
  match Resource.all.find? fun r => !admitsPercentage (percentage.get r) with
  | some r => .error (.percentageTooLow r (percentage.get r))
  | none =>
    match Resource.all.find? fun r => !admitsThreshold (threshold.get r) with
    | some r => .error (.thresholdOutside r (threshold.get r))
    | none => .ok ⟨percentage, threshold⟩

/-- New values for some resources. -/
structure Overrides (β : Type) where
  percentage : PerResource (Option β)
  threshold : PerResource (Option β)

/-- Values with some replaced. -/
def replaceSome {β : Type} (values : PerResource β) (news : PerResource (Option β)) :
    PerResource β :=
  PerResource.ofFn fun r => (news.get r).getD (values.get r)

/-- A constraint with some values replaced; it is judged as a whole again. -/
def override (c : Constraint Float) (o : Overrides Float) : Except Refusal (Constraint Float) :=
  make (replaceSome c.percentage o.percentage) (replaceSome c.threshold o.threshold)

/-- The resource of a name. -/
def resourceNamed (name : LooseText) : Except Refusal Resource :=
  match name.sound?.bind Resource.ofName? with
  | some r => .ok r
  | none => .error (.unknownResource name)

/-- Values by the resources that their keys name. Of two keys for one resource the later counts. -/
def byResource {β : Type} (fields : List (LooseText × β)) :
    Except Refusal (PerResource (Option β)) :=
  fields.foldlM (fun values (key, value) => return values.set (← resourceNamed key) (some value))
    (PerResource.replicate none)

/-- A value converted to a float. -/
def convertValue (value : Document) : Except Refusal Float :=
  match value.convert with
  | .float x => .ok x
  | .tooLarge => .error .tooLarge
  | .unreadable text => .error (.unreadable text)
  | .noNumber kind => .error (.noNumber kind)

/-- Converts the values that are given. -/
def convertAll (values : PerResource (Option Document)) :
    Except Refusal (PerResource (Option Float)) :=
  PerResource.ofFnM fun r =>
    match values.get r with
    | some value => some <$> convertValue value
    | none => .ok none

/-- Converts all values of some overrides. -/
def Overrides.convert (o : Overrides Document) : Except Refusal (Overrides Float) := do
  return ⟨← convertAll o.percentage, ← convertAll o.threshold⟩

/-- A constraint with some values replaced by values of any kind. They are converted before the
constraint is judged. -/
def revise (c : Constraint Float) (o : Overrides Document) : Except Refusal (Constraint Float) := do
  c.override (← o.convert)

/-- Overrides by the names of their resources. -/
def Overrides.ofFields {β : Type} (percentage threshold : List (LooseText × β)) :
    Except Refusal (Overrides β) := do
  return ⟨← byResource percentage, ← byResource threshold⟩

/-- The key of the percentages in a document. -/
def percentageKey : String := "balance_percentages"

/-- The key of the thresholds in a document. -/
def thresholdKey : String := "capacity_thresholds"

/-- The values in one part of a document. -/
def readPart (part : String) : Document → Except Refusal (PerResource (Option Float))
  | .object fields =>
    fields.foldlM
      (fun values (key, value) =>
        match value.number with
        | .notNumeric => .error (.notNumeric part key value)
        | .tooLarge => .error .tooLarge
        | .number x => return values.set (← resourceNamed key) (some x))
      (PerResource.replicate none)
  | _ => .error (.notMapping part)

/-- The constraint that a document describes; what it leaves out has its default. -/
def ofDocument : Document → Except Refusal (Constraint Float)
  | .object fields => do
    let percentage ← readPart percentageKey (Document.findD percentageKey (.object []) fields)
    let threshold ← readPart thresholdKey (Document.findD thresholdKey (.object []) fields)
    default.override ⟨percentage, threshold⟩
  | other => .error (.noMember other.kindName)

/-- The document of one value for each resource. -/
def partDocument (values : PerResource Float) : Document :=
  .ofFields (values.map Document.float).toFields

/-- The document of a constraint. -/
def toDocument (c : Constraint Float) : Document :=
  .object [(percentageKey, partDocument c.percentage), (thresholdKey, partDocument c.threshold)]

end Constraint

end ClusterBalance
