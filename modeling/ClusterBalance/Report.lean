import ClusterBalance.Statistics.Potential
import ClusterBalance.Statistics.Topics

/-! The balance report of a cluster, and the holder that is filled with one report and then never
changes. -/

namespace ClusterBalance

/-- What is published of a cluster under a constraint. -/
structure Report (α : Type) where
  numBrokers : Nat
  numAlive : Nat
  numReplicas : Nat
  numTopics : Nat
  partitionsToHeal : Nat
  utilization : PerResource (Spread α α)
  balanced : PerResource Nat
  potentialOut : Spread α α
  underThreshold : Nat
  replicas : Spread α Nat
  leaders : Spread α Nat
  topics : Spread α Nat
  constraint : Constraint α
  loadMatrix : List (LoadVector α)
  windows : Nat
  monitoredRatio : Float
  deriving BEq

section Measure

variable {α : Type} [Scalar α]

/-- The report of a cluster. Everything is computed before anything is published, and the first
error decides. -/
def Cluster.measure (c : Cluster α) (constraint : Constraint α) : Except StatsError (Report α) :=
  let numAlive := c.aliveBrokers.length
  if numAlive = 0 then .error (.degenerate .aliveBrokers)
  else do
    let summaries ← PerResource.ofFnM fun r => c.summarizeResource constraint r (.count numAlive)
    let potential ← c.summarizePotential constraint (.count numAlive)
    let replicas ← c.summarizeCounts (·.numReplicas) (.count numAlive)
    let leaders ← c.summarizeCounts (·.numLeaders) (.count numAlive)
    let topics ← c.summarizeTopics (.count numAlive)
    return {
      numBrokers := c.brokers.length
      numAlive
      numReplicas := c.distribution.numReplicas
      numTopics := c.topics.length
      partitionsToHeal := c.distribution.partitionsToHeal
      utilization := summaries.map (·.spread)
      balanced := summaries.map (·.balanced)
      potentialOut := potential.spread
      underThreshold := potential.underThreshold
      replicas
      leaders
      topics
      constraint
      loadMatrix := c.loadMatrix
      windows := c.windows
      monitoredRatio := c.monitoredRatio }

end Measure

/-- A holder of at most one report. -/
inductive ReportSlot (α : Type) where
  | empty
  | filled (report : Report α)
  deriving BEq

namespace ReportSlot

variable {α : Type}

/-- The report, if there is one. -/
def report? : ReportSlot α → Option (Report α)
  | empty => none
  | filled report => some report

/-- Whether there is a report. -/
def isFilled : ReportSlot α → Bool
  | empty => false
  | filled _ => true

/-- Fills an empty holder with the report of a cluster. A holder that has a report refuses any
other. -/
def fill [Scalar α] (s : ReportSlot α) (c : Cluster α) (constraint : Constraint α) :
    Except StatsError (ReportSlot α) :=
  match s with
  | filled _ => .error .alreadyFilled
  | empty => filled <$> c.measure constraint

/-- A count of the report, or zero without one. -/
def count (s : ReportSlot α) (f : Report α → Nat) : Nat := (s.report?.map f).getD 0

/-- The share of monitored partitions, in percent. -/
def monitoredPercentage (s : ReportSlot α) : Float :=
  ((s.report?.map (·.monitoredRatio)).getD 0.0) * 100.0

end ReportSlot

end ClusterBalance
