import ClusterBalance.Claim.Partition
import ClusterBalance.Cluster.Snapshot

/-! Brokers that are claimed by any values in the places of their parts. Flags hold where their
values are set, and a host that is not set is named after the id. -/

namespace ClusterBalance

/-- A claimed copy of a partition, with the id of the broker it claims to be on. -/
structure ReplicaClaim where
  partition : PartitionClaim
  broker : Document
  leader : Document
  load : LoadVector Float
  offline : Document

namespace ReplicaClaim

/-- The name of a claimed replica: its partition and its broker. -/
def name (r : ReplicaClaim) : String := r.partition.name.shown ++ "@" ++ r.broker.display

/-- The document of a claimed replica. -/
def toDocument (r : ReplicaClaim) : Document :=
  .object
    [("topic", r.partition.topic), ("partition", r.partition.number), ("leader", r.leader),
      ("offline", r.offline), ("load", r.load.toDocument)]

end ReplicaClaim

/-- A claimed broker. -/
structure BrokerClaim where
  id : Document
  capacity : LoadVector Float
  replicas : List ReplicaClaim
  host : Document
  rack : Document
  alive : Document

namespace BrokerClaim

/-- The host of a claimed broker, which is named after the broker if no host is set. -/
def hostNamed [Limits] (id host : Document) : Except ClaimError Document :=
  if host.isSet then .ok host
  else
    match id.wording? with
    | .ok text => .ok (.string ((LooseText.sound "host-").append text))
    | .error cause => .error (.noLiteral cause)

/-- Each replica has to claim the broker that it is placed on. -/
def requirePlaced (id : Document) (replicas : List ReplicaClaim) : Except ClaimError Unit :=
  match replicas.find? fun r => !r.broker.equals id with
  | some r => .error (.misplaced r.partition r.broker id)
  | none => .ok ()

/-- An id has to be a number that is not below zero. -/
def requireId (id : Document) : Except ClaimError Unit :=
  match id.holds .less (.int 0) with
  | .ok false => .ok ()
  | .ok true => .error (.negativeId id)
  | .error cause => .error (.misuse cause)

/-- Topics have to be values by which replicas can be counted. -/
def requireTopics (replicas : List ReplicaClaim) : Except ClaimError Unit :=
  match replicas.forM fun r => r.partition.requireHashable with
  | .ok _ => .ok ()
  | .error cause => .error (.misuse cause)

/-- The broker that some parts claim. -/
def make [Limits] (id : Document) (capacity : LoadVector Float) (replicas : List ReplicaClaim)
    (host rack alive : Document) : Except ClaimError BrokerClaim := do
  requireId id
  requirePlaced id replicas
  requireTopics replicas
  let host ← hostNamed id host
  return { id, capacity, replicas, host, rack, alive }

variable (b : BrokerClaim)

/-- The number of replicas. -/
def numReplicas : Nat := b.replicas.length

/-- The replicas that lead their partitions. -/
def leaders : List ReplicaClaim := b.replicas.filter (·.leader.isSet)

/-- The load of all replicas. -/
def load : LoadVector Float := LoadVector.sum (b.replicas.map (·.load))

/-- The number of replicas of a topic. -/
def numReplicasOf (topic : Document) : Except Misuse Nat := do
  topic.requireHashable
  return b.replicas.countP (·.partition.topic.equals topic)

/-- The document of a claimed broker. -/
def toDocument : Document :=
  .object
    [("id", b.id), ("host", b.host), ("rack", b.rack), ("alive", b.alive),
      ("capacity", b.capacity.toDocument),
      ("replicas", .list (b.replicas.map ReplicaClaim.toDocument))]

end BrokerClaim

end ClusterBalance
