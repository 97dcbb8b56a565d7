import ClusterBalance.Cluster
import ClusterBalance.Constraint
import ClusterBalance.Statistic
import ClusterBalance.Statistics.Band
import ClusterBalance.Statistics.Divisor

/-! How evenly a resource is used. A broker's use is judged against the use of the whole cluster as
a fraction of its capacity, so a broker with more capacity is expected to carry more. -/

namespace ClusterBalance

/-- What is measured of one broker: what it uses, whether a fraction of its capacity counts as
acceptable, and the square of the distance from the use that is expected of it. -/
structure BrokerReading (α : Type) where
  used : α
  accepted : Bool
  squaredDeviation : α

section Readings

variable {α : Type} [Scalar α]

/-- The reading of one broker, from what it uses and has. The words for its capacity are made
before it is divided by, also where it is not zero. -/
def BrokerReading.make (quantity : Quantity) (expectedFraction : α) (accepts : α → Bool)
    (used capacity : α) : Except StatsError (BrokerReading α) := do
  let _ ← StatsError.words quantity
  let fraction ← divide quantity used capacity
  let squaredDeviation ← StatsError.lift (Scalar.square? (used - expectedFraction * capacity))
  return { used, accepted := accepts fraction, squaredDeviation }

/-- The greatest of some uses, none of them being below zero. -/
def greatestUse (readings : List (BrokerReading α)) : α :=
  (readings.map (·.used)).foldl Scalar.larger 0

/-- The least of some uses. -/
def leastUse (readings : List (BrokerReading α)) : α :=
  (readings.map (·.used)).foldl Scalar.smaller Scalar.largest

/-- How many readings were accepted. -/
def numAccepted (readings : List (BrokerReading α)) : Nat := readings.countP (·.accepted)

/-- The statistics of some readings: the average is the total by the number of alive brokers, and
the deviation is the root of the mean square. -/
def spreadOfReadings (total : α) (numAlive : Divisor α) (readings : List (BrokerReading α)) :
    Except StatsError (Spread α α) := do
  let average ← numAlive.divide .aliveBrokers total
  let squares := Scalar.sum (readings.map (·.squaredDeviation))
  let meanSquare ← numAlive.divide .aliveBrokers squares
  let deviation ← StatsError.lift (Scalar.sqrt? meanSquare)
  return { average, maximum := greatestUse readings, minimum := leastUse readings, deviation }

end Readings

/-- The use of one resource by the alive brokers. -/
structure ResourceSummary (α : Type) where
  resource : Resource
  spread : Spread α α
  balanced : Nat
  averageFraction : α
  band : Band α

namespace Cluster

variable {α : Type} [Scalar α]

/-- What the whole cluster uses of a resource, as a fraction of its capacity. -/
def usedFraction (c : Cluster α) (r : Resource) : Except StatsError α :=
  divide (.clusterCapacity r) (c.load.get r) (c.capacity.get r)

/-- The reading of one broker for a resource. -/
def utilizationReading (c : Cluster α) (r : Resource) (average : α) (band : Band α)
    (b : Broker α) : Except StatsError (BrokerReading α) :=
  let (used, capacity) := c.measured r b
  BrokerReading.make (.brokerCapacity r b.id) average band.contains used capacity

/-- The summary of a resource. -/
def summarizeResource (c : Cluster α) (constraint : Constraint α) (r : Resource)
    (numAlive : Divisor α) : Except StatsError (ResourceSummary α) := do
  let average ← c.usedFraction r
  let band := Band.around average (constraint.percentage.get r)
  let readings ← c.aliveBrokers.mapM (c.utilizationReading r average band)
  let spread ← spreadOfReadings (c.load.get r) numAlive readings
  return {
    resource := r
    spread
    balanced := numAccepted readings
    averageFraction := average
    band }

end Cluster

end ClusterBalance
