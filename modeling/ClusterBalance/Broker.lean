import ClusterBalance.Document.Literal
import ClusterBalance.LoadVector
import ClusterBalance.TopicPartition

/-! Brokers and the replicas placed on them. -/

namespace ClusterBalance

/-- A copy of a partition on some broker. An offline replica lies on a failed disk. -/
structure Replica (α : Type) where
  partition : TopicPartition
  leader : Bool
  load : LoadVector α
  offline : Bool
  deriving BEq

/-- The topic of a replica. -/
def Replica.topic {α : Type} (r : Replica α) : LooseText := r.partition.topic

/-- A broker process. Brokers with the same host name run on one host. -/
structure Broker (α : Type) where
  id : Nat
  capacity : LoadVector α
  replicas : List (Replica α)
  host : LooseText
  rack : LooseText
  alive : Bool
  deriving BEq

namespace Broker

variable {α : Type}

/-- Why parts make no broker. A host can only be named after an id that has a text. -/
inductive Refusal where
  | negativeId (id : Int)
  | misplaced (partition : TopicPartition) (claimed placed : Int)
  | tooManyDigits
  deriving DecidableEq

/-- The name of the host that is named after an id with the given text. -/
def defaultHost (id : String) : LooseText := "host-" ++ id

/-- The host of a broker, which is named after the broker if no name is given. -/
def hostNamed (id : Nat) (name : LooseText) : Except Refusal LooseText :=
  if name = "" then
    match Document.wholeText? id with
    | .ok text => .ok (defaultHost text)
    | .error _ => .error .tooManyDigits
  else .ok name

/-- A broker from its parts. Each replica comes with the id of the broker it claims to be on, which
has to be this one. -/
def make (id : Int) (capacity : LoadVector α) (replicas : List (Int × Replica α))
    (host rack : LooseText) (alive : Bool) : Except Refusal (Broker α) :=
  if id < 0 then .error (.negativeId id)
  else
    match replicas.find? fun (claimed, _) => claimed ≠ id with
    | some (claimed, r) => .error (.misplaced r.partition claimed id)
    | none => do
      let host ← hostNamed id.toNat host
      return {
        id := id.toNat
        capacity
        replicas := replicas.map Prod.snd
        host
        rack
        alive }

/-- The number of replicas. -/
def numReplicas (b : Broker α) : Nat := b.replicas.length

/-- The replicas that lead their partitions. -/
def leaders (b : Broker α) : List (Replica α) := b.replicas.filter (·.leader)

/-- The number of replicas that lead their partitions. -/
def numLeaders (b : Broker α) : Nat := b.replicas.countP (·.leader)

/-- The number of replicas of a topic. -/
def numReplicasOf (b : Broker α) (topic : LooseText) : Nat :=
  b.replicas.countP fun r => r.topic = topic

variable [Scalar α]

/-- The load of all replicas. -/
def load (b : Broker α) : LoadVector α := LoadVector.sum (b.replicas.map (·.load))

end Broker

/-- A host and the brokers that run on it. -/
structure Host (α : Type) where
  name : LooseText
  brokers : List (Broker α)
  deriving BEq

namespace Host

variable {α : Type} [Scalar α]

/-- What the brokers of a host use of a resource. -/
def load (h : Host α) (r : Resource) : α := Scalar.total (h.brokers.map fun b => b.load.get r)

/-- What the brokers of a host have of a resource. -/
def capacity (h : Host α) (r : Resource) : α :=
  Scalar.total (h.brokers.map fun b => b.capacity.get r)

end Host

end ClusterBalance
