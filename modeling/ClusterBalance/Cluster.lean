import ClusterBalance.Broker

/-! A snapshot of a cluster: its brokers in the order of their ids, and the questions that the
statistics ask of it. -/

namespace ClusterBalance

/-- The brokers of a cluster with the share of the partitions that were monitored and the number of
windows that the snapshot covers. -/
structure Cluster (α : Type) where
  brokers : List (Broker α)
  monitoredRatio : Float
  windows : Nat
  deriving BEq

/-- The sum of some counts. -/
def totalCount (counts : List Nat) : Nat := counts.foldl (· + ·) 0

/-- The first item of a list that is among the items seen before it. -/
def firstRepeat? {β : Type} [DecidableEq β] (seen : List β) : List β → Option β
  | [] => none
  | x :: xs => if x ∈ seen then some x else firstRepeat? (x :: seen) xs

/-- Nothing repeats exactly if the items differ from each other and from those seen before. -/
theorem firstRepeat?_eq_none_iff {β : Type} [DecidableEq β] (seen xs : List β) :
    firstRepeat? seen xs = none ↔ xs.Nodup ∧ ∀ x ∈ xs, x ∉ seen := by
  induction xs generalizing seen with
  | nil => simp [firstRepeat?]
  | cons x xs ih =>
    by_cases h : x ∈ seen
    · simp [firstRepeat?, h]
    · simp only [firstRepeat?, h, if_false, ih]
      grind

namespace Cluster

variable {α : Type}

/-- Why brokers make no cluster. -/
inductive Refusal where
  | ratioOutside (ratio : Float)
  | negativeWindows (windows : Int)
  | repeatedBroker (id : Nat)
  | repeatedLeader (partition : TopicPartition)

/-- Brokers in the order of their ids. -/
def inOrder (brokers : List (Broker α)) : List (Broker α) :=
  brokers.mergeSort fun a b => a.id ≤ b.id

/-- The partitions of the leading replicas of some brokers. -/
def ledPartitions (brokers : List (Broker α)) : List TopicPartition :=
  brokers.flatMap fun b => b.leaders.map (·.partition)

/-- The cluster of some brokers. Ids have to differ, and a partition has at most one leader. -/
def make (brokers : List (Broker α)) (monitoredRatio : Float) (windows : Int) :
    Except Refusal (Cluster α) :=
  if ¬(0.0 ≤ monitoredRatio ∧ monitoredRatio ≤ 1.0) then .error (.ratioOutside monitoredRatio)
  else if windows < 0 then .error (.negativeWindows windows)
  else
    match firstRepeat? [] (brokers.map (·.id)) with
    | some id => .error (.repeatedBroker id)
    | none =>
      match firstRepeat? [] (ledPartitions (inOrder brokers)) with
      | some partition => .error (.repeatedLeader partition)
      | none => .ok ⟨inOrder brokers, monitoredRatio, windows.toNat⟩

variable (c : Cluster α)

/-- The brokers that are alive. -/
def aliveBrokers : List (Broker α) := c.brokers.filter (·.alive)

/-- The brokers that are not alive. -/
def deadBrokers : List (Broker α) := c.brokers.filter (!·.alive)

/-- The broker with an id. -/
def broker? (id : Int) : Option (Broker α) := c.brokers.find? fun b => (b.id : Int) = id

/-- The host of a name, with its brokers. -/
def hostNamed (name : LooseText) : Host α := ⟨name, c.brokers.filter (·.host = name)⟩

/-- The host that a broker runs on. -/
def hostOf (b : Broker α) : Host α := c.hostNamed b.host

/-- The hosts, in the order of their first brokers. -/
def hosts : List (Host α) := (c.brokers.map (·.host)).eraseDups.map c.hostNamed

/-- Every replica with the id of its broker. -/
def placements : List (Nat × Replica α) :=
  c.brokers.flatMap fun b => b.replicas.map fun r => (b.id, r)

/-- Every replica. -/
def replicas : List (Replica α) := c.brokers.flatMap (·.replicas)

/-- The topics, in ascending order. -/
def topics : List LooseText :=
  (c.replicas.map (·.topic)).eraseDups.mergeSort fun s t => !(t < s)

/-- The number of replicas. -/
def numReplicas : Nat := totalCount (c.brokers.map (·.numReplicas))

/-- The number of replicas of a topic. -/
def numReplicasOf (topic : LooseText) : Nat :=
  totalCount (c.brokers.map (·.numReplicasOf topic))

/-- The replicas on dead brokers or failed disks, with the ids of their brokers. -/
def healing : List (Nat × Replica α) :=
  c.brokers.flatMap fun b =>
    (b.replicas.filter fun r => !b.alive || r.offline).map fun r => (b.id, r)

/-- The replicas that lead their partitions, with the ids of their brokers. -/
def leaders : List (Nat × Replica α) := c.placements.filter (·.2.leader)

/-- The leading replica of a partition, with the id of its broker. -/
def leader? (partition : TopicPartition) : Option (Nat × Replica α) :=
  c.leaders.find? fun (_, r) => r.partition = partition

/-- The load a replica would bring if it led its partition: that of its leader, if some replica
leads it. -/
def leadershipLoad (leaders : List (Nat × Replica α)) (r : Replica α) : LoadVector α :=
  match leaders.find? fun (_, leader) => leader.partition = r.partition with
  | some (_, leader) => leader.load
  | none => r.load

variable [Scalar α]

/-- The load a broker would carry if it led every partition it hosts. -/
def potentialLoad (b : Broker α) : LoadVector α :=
  let leaders := c.leaders
  LoadVector.sum (b.replicas.map (leadershipLoad leaders))

/-- The load of all brokers, dead ones included. -/
def load : LoadVector α := LoadVector.sum (c.brokers.map (·.load))

/-- The capacity of all brokers, dead ones included. -/
def capacity : LoadVector α := LoadVector.sum (c.brokers.map (·.capacity))

/-- The loads of the brokers that are alive. -/
def loadMatrix : List (LoadVector α) := c.aliveBrokers.map (·.load)

/-- What is measured of a broker for a resource: its host for a shared resource, else the broker
itself. First what is used, then what there is. -/
def measured (r : Resource) (b : Broker α) : α × α :=
  if r.isShared then ((c.hostOf b).load r, (c.hostOf b).capacity r)
  else (b.load.get r, b.capacity.get r)

end Cluster

end ClusterBalance
