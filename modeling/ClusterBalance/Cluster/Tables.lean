import ClusterBalance.Cluster

/-! The tables by which questions to a cluster can be answered with one look. Each is filled in a
single pass: the brokers by their ids in the order in which they are given, the hosts, the leading
replicas and the counts of the topics in the order of the ids. A pass ends at the first id or led
partition that comes again. -/

namespace ClusterBalance

/-- Values under keys, in the order in which the keys came. -/
abbrev Table (κ β : Type) := List (κ × β)

namespace Table

variable {κ β : Type} [DecidableEq κ]

/-- Makes the value of a key from the one it has, if it has any. A new key comes last. -/
def enter (key : κ) (next : Option β → β) : Table κ β → Table κ β
  | [] => [(key, next none)]
  | (k, value) :: rest =>
    if k = key then (k, next (some value)) :: rest else (k, value) :: enter key next rest

/-- Enters a value under a key that has to be new. -/
def enterNew {ε : Type} (refusal : κ → ε) (t : Table κ β) (key : κ) (value : β) :
    Except ε (Table κ β) :=
  if (t.lookup key).isSome then .error (refusal key) else .ok (enter key (fun _ => value) t)

end Table

namespace Cluster

/-- The tables of a cluster. -/
structure Tables (α : Type) where
  byId : Table Nat (Broker α)
  members : Table LooseText (List (Broker α))
  leaders : Table TopicPartition (Nat × Replica α)
  counts : Table LooseText Nat

namespace Tables

variable {α : Type}

/-- Enters a broker under its id. -/
def enterBroker (t : Table Nat (Broker α)) (b : Broker α) : Except Refusal (Table Nat (Broker α)) :=
  t.enterNew .repeatedBroker b.id b

/-- Enters a broker among those of its host. -/
def enterMember (t : Table LooseText (List (Broker α))) (b : Broker α) :
    Table LooseText (List (Broker α)) :=
  t.enter b.host fun members => members.getD [] ++ [b]

/-- Counts a replica for its topic, and enters it under its partition if it leads. -/
def enterReplica (id : Nat) (t : Table TopicPartition (Nat × Replica α) × Table LooseText Nat)
    (r : Replica α) :
    Except Refusal (Table TopicPartition (Nat × Replica α) × Table LooseText Nat) := do
  let counts := t.2.enter r.topic fun n => n.getD 0 + 1
  if r.leader then return (← t.1.enterNew .repeatedLeader r.partition (id, r), counts)
  else return (t.1, counts)

/-- Enters the replicas of a broker. -/
def enterReplicas (t : Table TopicPartition (Nat × Replica α) × Table LooseText Nat)
    (b : Broker α) :
    Except Refusal (Table TopicPartition (Nat × Replica α) × Table LooseText Nat) :=
  b.replicas.foldlM (enterReplica b.id) t

/-- The tables of some brokers. -/
def build (brokers : List (Broker α)) : Except Refusal (Tables α) := do
  let byId ← brokers.foldlM enterBroker []
  let ordered := inOrder brokers
  let members := ordered.foldl enterMember []
  let (leaders, counts) ← ordered.foldlM enterReplicas ([], [])
  return { byId, members, leaders, counts }

/-- The hosts, in the order in which they were entered. -/
def hosts (t : Tables α) : List (Host α) := t.members.map fun (name, brokers) => ⟨name, brokers⟩

end Tables

end Cluster

end ClusterBalance
