import ClusterBalance.Report

/-! The published state of a holder of statistics, field by field, and the calls that fill it. A
call stores one field after another; whether it can fail halfway is not built into the state. -/

namespace ClusterBalance

/-- What a holder of statistics has published. Without statistics there are no maps, no matrix and
no constraint, and every number is zero. -/
structure Publication (α : Type) where
  utilization : Option (PerResource (Spread α α)) := none
  potentialOut : Option (Spread α α) := none
  replicas : Option (Spread α Nat) := none
  leaders : Option (Spread α Nat) := none
  topics : Option (Spread α Nat) := none
  balanced : Option (PerResource Nat) := none
  numBrokers : Nat := 0
  numAlive : Nat := 0
  numReplicas : Nat := 0
  partitionsToHeal : Nat := 0
  numTopics : Nat := 0
  underThreshold : Nat := 0
  constraint : Option (Constraint α) := none
  loadMatrix : Option (List (LoadVector α)) := none
  windows : Nat := 0
  monitoredRatio : Float := 0.0
  isPopulated : Bool := false

/-- A request for statistics: a cluster and the constraint to measure it under. -/
structure Call (α : Type) where
  cluster : Cluster α
  constraint : Constraint α

namespace Publication

variable {α : Type}

/-- Stores a report, one field after another. -/
def store (r : Report α) : StateM (Publication α) Unit := do
  modify fun p => { p with utilization := some r.utilization }
  modify fun p => { p with balanced := some r.balanced }
  modify fun p => { p with potentialOut := some r.potentialOut }
  modify fun p => { p with underThreshold := r.underThreshold }
  modify fun p => { p with replicas := some r.replicas }
  modify fun p => { p with leaders := some r.leaders }
  modify fun p => { p with topics := some r.topics }
  modify fun p => { p with numReplicas := r.numReplicas }
  modify fun p => { p with partitionsToHeal := r.partitionsToHeal }
  modify fun p => { p with numBrokers := r.numBrokers }
  modify fun p => { p with numAlive := r.numAlive }
  modify fun p => { p with numTopics := r.numTopics }
  modify fun p => { p with constraint := some r.constraint }
  modify fun p => { p with loadMatrix := some r.loadMatrix }
  modify fun p => { p with windows := r.windows }
  modify fun p => { p with monitoredRatio := r.monitoredRatio }
  modify fun p => { p with isPopulated := true }

/-- The state that a report leaves behind. -/
def ofReport (r : Report α) : Publication α where
  utilization := some r.utilization
  potentialOut := some r.potentialOut
  replicas := some r.replicas
  leaders := some r.leaders
  topics := some r.topics
  balanced := some r.balanced
  numBrokers := r.numBrokers
  numAlive := r.numAlive
  numReplicas := r.numReplicas
  partitionsToHeal := r.partitionsToHeal
  numTopics := r.numTopics
  underThreshold := r.underThreshold
  constraint := some r.constraint
  loadMatrix := some r.loadMatrix
  windows := r.windows
  monitoredRatio := r.monitoredRatio
  isPopulated := true

variable [Scalar α]

/-- A call as it runs. What it has stored stays stored if it fails later. -/
def populate (x : Call α) : ExceptT StatsError (StateM (Publication α)) Unit := do
  if (← get).isPopulated then throw .alreadyFilled
  let report ← MonadExcept.ofExcept (x.cluster.measure x.constraint)
  store report

/-- The answer to a call, and the state behind it. -/
def call (p : Publication α) (x : Call α) : Except StatsError Unit × Publication α :=
  (populate x).run p

/-- The state of a new holder after some calls. -/
def after (calls : List (Call α)) : Publication α := calls.foldl (fun p x => (p.call x).2) {}

/-- The answer of a holder to a call after some others. -/
def answer (calls : List (Call α)) (x : Call α) : Except StatsError Unit := ((after calls).call x).1

end Publication

end ClusterBalance
