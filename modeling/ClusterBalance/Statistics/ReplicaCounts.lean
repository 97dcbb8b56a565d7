import ClusterBalance.Cluster
import ClusterBalance.Statistic
import ClusterBalance.Statistics.Divisor

/-! How evenly replicas are spread over brokers. Counts run over every broker, dead ones included;
the average divides by the number of alive brokers, and the deviation is taken over those alone. -/

namespace ClusterBalance

/-- The least of no counts: the greatest signed number of 64 bits. -/
def unboundedCount : Nat := 0x7FFFFFFFFFFFFFFF

/-- The greatest of some counts. -/
def greatestCount (counts : List Nat) : Nat := counts.foldl max 0

/-- The least of some counts. -/
def leastCount (counts : List Nat) : Nat := counts.foldl min unboundedCount

section Counts

variable {α : Type} [Scalar α]

/-- The deviation of some counts from an average. -/
def countDeviation (average : α) (numAlive : Divisor α) (counts : List Nat) :
    Except StatsError α := do
  let shares ← counts.mapM fun n => do
    let square ← StatsError.lift (Scalar.square? (Scalar.ofNat n - average))
    numAlive.divide .aliveBrokers square
  StatsError.lift (Scalar.sqrt? (Scalar.sum shares))

end Counts

namespace Cluster

variable {α : Type} [Scalar α]

/-- The statistics of a count of replicas by broker. -/
def summarizeCounts (c : Cluster α) (count : Broker α → Nat) (numAlive : Divisor α) :
    Except StatsError (Spread α Nat) := do
  let counts := c.brokers.map count
  let average ← numAlive.divideCount .aliveBrokers (totalCount counts)
  let deviation ← countDeviation average numAlive (c.aliveBrokers.map count)
  return { average, maximum := greatestCount counts, minimum := leastCount counts, deviation }

end Cluster

/-- How many replicas there are, and how many partitions have one that needs healing. -/
structure Distribution where
  numReplicas : Nat
  partitionsToHeal : Nat
  deriving DecidableEq, Repr

/-- The distribution of the replicas of a cluster. -/
def Cluster.distribution {α : Type} (c : Cluster α) : Distribution where
  numReplicas := c.numReplicas
  partitionsToHeal := (c.healing.map (·.2.partition)).eraseDups.length

end ClusterBalance
