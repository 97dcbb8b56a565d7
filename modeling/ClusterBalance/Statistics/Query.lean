import ClusterBalance.Cluster.Query
import ClusterBalance.Statistics.Potential
import ClusterBalance.Statistics.Topics

/-! Statistics that are asked for with any value in the place of the number of alive brokers, and
with any value that names a topic. -/

namespace ClusterBalance

/-- Why statistics are not given. -/
inductive StatsQueryError where
  | stats (cause : StatsError)
  | misuse (cause : Misuse)

/-- The number that a value is as a divisor. A truth value counts as one or zero. -/
def Document.divisor? : Document → Option (Divisor Float)
  | bool b => some (.count (if b then 1 else 0))
  | int n => some (.count n)
  | float x => some (.number x)
  | _ => none

namespace StatsQueryError

/-- Statistics or the error that keeps them away. -/
def lift {β : Type} : Except StatsError β → Except StatsQueryError β
  | .ok x => .ok x
  | .error cause => .error (.stats cause)

/-- Statistics for a value as the number of alive brokers. That a value is no number shows only
where a total of the given kind is divided by it, behind the faults of everything before that. -/
def judge {β : Type} (totalKind : String) (numAlive : Document)
    (statistics : Divisor Float → Except StatsError β) : Except StatsQueryError β :=
  match numAlive.divisor? with
  | some divisor => lift (statistics divisor)
  | none => do
    let _ ← lift (statistics (.count 1))
    throw (.misuse (.noQuotient totalKind numAlive.kindName))

end StatsQueryError

namespace Cluster

variable (c : Cluster Float)

/-- The kind of the totals of amounts. -/
def amountKind : String := Document.kindName (.float 0.0)

/-- The kind of the totals of counts. -/
def countKind : String := Document.kindName (.int 0)

/-- The summary of a resource. -/
def resourceSummaryFor (constraint : Constraint Float) (r : Resource) (numAlive : Document) :
    Except StatsQueryError (ResourceSummary Float) :=
  StatsQueryError.judge amountKind numAlive (c.summarizeResource constraint r)

/-- The summary of the potential outbound load. Without alive brokers its total is a count. -/
def potentialSummaryFor (constraint : Constraint Float) (numAlive : Document) :
    Except StatsQueryError (PotentialSummary Float) :=
  let totalKind := if c.aliveBrokers.isEmpty then countKind else amountKind
  StatsQueryError.judge totalKind numAlive (c.summarizePotential constraint)

/-- The statistics of a count of replicas by broker. -/
def countSummaryFor (count : Broker Float → Nat) (numAlive : Document) :
    Except StatsQueryError (Spread Float Nat) :=
  StatsQueryError.judge countKind numAlive (c.summarizeCounts count)

/-- The statistics of the replicas of the topic that a value names, by broker. -/
def topicSummaryFor (topic numAlive : Document) : Except StatsQueryError (Spread Float Nat) :=
  match topic.requireHashable, c.brokers with
  | .error cause, _ :: _ => .error (.misuse cause)
  | _, _ => c.countSummaryFor (·.numReplicasFor topic) numAlive

/-- The statistics over all topics. -/
def topicsSummaryFor (numAlive : Document) : Except StatsQueryError (Spread Float Nat) :=
  StatsQueryError.judge countKind numAlive c.summarizeTopics

end Cluster

end ClusterBalance
