import ClusterBalance.Decimal.Layout
import ClusterBalance.Log
import ClusterBalance.Report

/-! What is logged while the report of a cluster is made: a line for each resource and one for the
potential outbound load, up to the first error, and one for the report itself. -/

namespace ClusterBalance

/-- The sentence with the counts of a report. -/
def ReportSlot.countsText {α : Type} (s : ReportSlot α) : String :=
  toString (s.count (·.numBrokers)) ++ " brokers " ++ toString (s.count (·.numReplicas)) ++
    " replicas " ++ toString (s.count (·.numTopics)) ++ " topics."

/-- The values before the first error. -/
def valuesBeforeError {ε β : Type} : List (Except ε β) → List β
  | .ok x :: rest => x :: valuesBeforeError rest
  | _ => []

namespace Cluster

/-- A record of the making of a report. -/
def measureRecord (level : Log.Level) (message : String) : Log.Record where
  level := level
  source := some "clusterstats.core.cluster_model_stats"
  function := "populate"
  message := message

/-- The line about a resource. -/
def resourceLine (numAlive : Nat) (s : ResourceSummary Float) : String :=
  s.resource.wireName ++ " utilization fraction " ++ Decimal.fixed 4 s.averageFraction ++
    " band [" ++ Decimal.fixed 4 s.band.lower ++ ", " ++ Decimal.fixed 4 s.band.upper ++ "]: " ++
    toString s.balanced ++ "/" ++ toString numAlive ++ " brokers balanced"

/-- The line about the potential outbound load. -/
def potentialLine (numAlive : Nat) (s : PotentialSummary Float) : String :=
  toString s.underThreshold ++ "/" ++ toString numAlive ++ " brokers under potential " ++
    Resource.networkOut.wireName ++ " threshold " ++ Decimal.fixed 2 s.threshold

/-- The records of the making of a cluster's report. -/
def measureRecords (c : Cluster Float) (constraint : Constraint Float) : List Log.Record :=
  let numAlive := c.aliveBrokers.length
  if numAlive = 0 then []
  else
    let summaries :=
      valuesBeforeError
        (Resource.all.map fun r => c.summarizeResource constraint r (.count numAlive))
    let potential :=
      if summaries.length < Resource.all.length then []
      else valuesBeforeError [c.summarizePotential constraint (.count numAlive)]
    let report := valuesBeforeError [c.measure constraint]
    summaries.map (measureRecord .debug <| resourceLine numAlive ·) ++
      potential.map (measureRecord .debug <| potentialLine numAlive ·) ++
      report.map fun r =>
        measureRecord .info
          ("Populated cluster model stats: " ++ (ReportSlot.filled r).countsText)

end Cluster

/-- The message about how long a named piece of work took. -/
def durationMessage (name elapsed : String) : String :=
  (if name = "" then "" else "[" ++ name ++ "] ") ++ "Duration: " ++ elapsed

end ClusterBalance
