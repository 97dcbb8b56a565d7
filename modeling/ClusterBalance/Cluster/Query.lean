import ClusterBalance.Claim.Partition
import ClusterBalance.Cluster.Error

/-! Questions to a cluster that name a broker, a topic, a partition or a resource by any value. -/

namespace ClusterBalance

/-- Why a question has no answer. -/
inductive QueryError where
  | unknownBroker (id : LooseText)
  | unknownResource (name : LooseText)
  | claim (cause : ClaimError)
  | misuse (cause : Misuse)
  | noLiteral (cause : Document.LiteralError)

/-- The text of a question without an answer. -/
def QueryError.message : QueryError → String
  | unknownBroker id =>
    (((LooseText.sound "Broker ").append id).append " not found in cluster model").quoted
  | unknownResource name => "Unknown resource: " ++ name.quoted
  | claim cause => cause.message
  | misuse cause => cause.message
  | noLiteral cause => cause.message

/-- A misuse in a question. -/
def QueryError.lift {β : Type} : Except Misuse β → Except QueryError β
  | .ok x => .ok x
  | .error cause => .error (.misuse cause)

/-- The resource that a value names. -/
def Resource.forValue : Document → Except QueryError Resource
  | .string name =>
    match name.sound?.bind Resource.ofName? with
    | some r => .ok r
    | none => .error (.unknownResource name)
  | other => .error (.misuse (.noMember other.kindName "strip"))

/-- The number of replicas of the topic that a value names. -/
def Broker.numReplicasFor {α : Type} (b : Broker α) (topic : Document) : Nat :=
  b.replicas.countP fun r => (Document.string r.topic).equals topic

namespace Cluster

variable {α : Type} (c : Cluster α)

/-- That there is no broker with an id is said with the text of the id, if it has one. -/
def unknownBroker [Limits] (id : Document) : QueryError :=
  match id.wording? with
  | .ok text => .unknownBroker text
  | .error cause => .noLiteral cause

/-- The broker whose id a value equals. -/
def brokerFor [Limits] (id : Document) : Except QueryError (Broker α) := do
  QueryError.lift id.requireHashable
  match c.brokers.find? fun b => (Document.int b.id).equals id with
  | some b => return b
  | none => throw (unknownBroker id)

/-- A whole number finds the broker with that id. -/
theorem brokerFor_int [Limits] (n : Int) :
    c.brokerFor (.int n) =
      match c.broker? n with
      | some b => .ok b
      | none => .error (unknownBroker (.int n)) := by
  simp only [brokerFor, broker?, Document.equals_int, Document.requireHashable, QueryError.lift]
  rfl

/-- The number of replicas of the topic that a value names. -/
def numReplicasFor (topic : Document) : Except QueryError Nat := do
  QueryError.lift topic.requireHashable
  return totalCount (c.brokers.map (·.numReplicasFor topic))

/-- The leading replica of the partition that two values claim, with the id of its broker. -/
def leaderFor (topic number : Document) : Except QueryError (Option (Nat × Replica α)) := do
  match PartitionClaim.make topic number with
  | .ok p =>
    QueryError.lift p.requireHashable
    return c.leaders.find? fun (_, r) => p.isTo r.partition
  | .error cause => throw (.claim cause)

end Cluster

end ClusterBalance
