import ClusterBalance.Statistics.Utilization

/-! The outbound network load if every broker led all partitions it hosts. -/

namespace ClusterBalance

/-- The potential outbound load of the alive brokers. -/
structure PotentialSummary (α : Type) where
  spread : Spread α α
  underThreshold : Nat
  threshold : α

namespace Cluster

variable {α : Type} [Scalar α]

/-- The potential outbound load of one broker. -/
def potentialOut (c : Cluster α) (b : Broker α) : α := (c.potentialLoad b).get .networkOut

/-- The potential outbound load of all alive brokers. -/
def totalPotentialOut (c : Cluster α) : α := Scalar.total (c.aliveBrokers.map c.potentialOut)

/-- The reading of one broker, by its own outbound capacity. -/
def potentialReading (c : Cluster α) (average threshold : α) (b : Broker α) :
    Except StatsError (BrokerReading α) :=
  BrokerReading.make (.brokerCapacity .networkOut b.id) average (fun x => x ≤ threshold)
    (c.potentialOut b) (b.capacity.get .networkOut)

/-- The summary of the potential outbound load. -/
def summarizePotential (c : Cluster α) (constraint : Constraint α) (numAlive : Divisor α) :
    Except StatsError (PotentialSummary α) := do
  let total := c.totalPotentialOut
  let average ← divide (.clusterCapacity .networkOut) total (c.capacity.get .networkOut)
  let threshold := constraint.threshold.get .networkOut
  let readings ← c.aliveBrokers.mapM (c.potentialReading average threshold)
  let spread ← spreadOfReadings total numAlive readings
  return { spread, underThreshold := numAccepted readings, threshold }

end Cluster

end ClusterBalance
