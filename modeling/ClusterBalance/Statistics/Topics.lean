import ClusterBalance.Statistics.ReplicaCounts

/-! How evenly the replicas of each topic are spread over brokers. The average and the deviation are
means over the topics, so that a small topic weighs as much as a large one; the extremes are those
over all topics. -/

namespace ClusterBalance

namespace Cluster

variable {α : Type} [Scalar α]

/-- The statistics of one topic. Its average and deviation are taken over the alive brokers, its
extremes over all. -/
def summarizeTopic (c : Cluster α) (numAlive : Divisor α) (topic : LooseText) :
    Except StatsError (Spread α Nat) := do
  let counts : List Nat := c.brokers.map (·.numReplicasOf topic)
  let aliveCounts : List Nat := c.aliveBrokers.map (·.numReplicasOf topic)
  let average ← numAlive.divideCount .aliveBrokers (totalCount aliveCounts)
  let deviation ← countDeviation average numAlive aliveCounts
  return { average, maximum := greatestCount counts, minimum := leastCount counts, deviation }

/-- The statistics over all topics. -/
def summarizeTopics (c : Cluster α) (numAlive : Divisor α) : Except StatsError (Spread α Nat) := do
  let spreads ← c.topics.mapM (c.summarizeTopic numAlive)
  let numTopics := c.topics.length
  let average ← divideByCount .topics (Scalar.sum (spreads.map (·.average))) numTopics
  let deviation ← divideByCount .topics (Scalar.sum (spreads.map (·.deviation))) numTopics
  return {
    average
    maximum := greatestCount (spreads.map (·.maximum))
    minimum := leastCount (spreads.map (·.minimum))
    deviation }

end Cluster

end ClusterBalance
