import ClusterBalance.Cluster
import ClusterBalance.Constraint
import ClusterBalance.Document.Literal

/-! The literal texts of clusters and of constraints: the kind of each part and, by name, all that
it is made of. -/

namespace ClusterBalance

/-- The text of a record: its kind and its parts by name. -/
def recordLiteral (kind : String) (parts : List (String × String)) : String :=
  kind ++ "(" ++ ", ".intercalate (parts.map fun (name, text) => name ++ "=" ++ text) ++ ")"

/-- The text of a fixed sequence. A comma tells a sequence of one from its only item. -/
def sequenceLiteral : List String → String
  | [item] => "(" ++ item ++ ",)"
  | items => "(" ++ ", ".intercalate items ++ ")"

/-- The text of a whole number. -/
def wholeLiteral (n : Nat) : String := (Document.int n).literal

/-- The text of a flag. -/
def flagLiteral (b : Bool) : String := (Document.bool b).literal

/-- The text of an amount. -/
def amountLiteral (x : Float) : String := (Document.float x).literal

/-- The text of a partition. -/
def TopicPartition.literal (p : TopicPartition) : String :=
  recordLiteral "TopicPartition"
    [("topic", p.topic.quoted), ("partition", wholeLiteral p.partition)]

/-- The text of a load or a capacity. -/
def LoadVector.literal (v : LoadVector Float) : String :=
  recordLiteral "ResourceVector"
    (Resource.all.map fun r => (Text.asciiLower r.symbol, amountLiteral (v.get r)))

/-- The text of a replica on the broker with an id. -/
def Replica.literal (broker : Nat) (r : Replica Float) : String :=
  recordLiteral "Replica"
    [("topic_partition", r.partition.literal), ("broker_id", wholeLiteral broker),
      ("is_leader", flagLiteral r.leader), ("load", LoadVector.literal r.load),
      ("is_offline", flagLiteral r.offline)]

/-- The text of a broker. -/
def Broker.literal (b : Broker Float) : String :=
  recordLiteral "Broker"
    [("id", wholeLiteral b.id), ("capacity", LoadVector.literal b.capacity),
      ("replicas", sequenceLiteral (b.replicas.map (Replica.literal b.id))),
      ("host_name", b.host.quoted), ("rack", b.rack.quoted),
      ("is_alive", flagLiteral b.alive)]

/-- The text of a cluster. -/
def Cluster.literal (c : Cluster Float) : String :=
  recordLiteral "ClusterModel"
    [("_brokers", sequenceLiteral (c.brokers.map Broker.literal)),
      ("_monitored_partitions_ratio", amountLiteral c.monitoredRatio),
      ("_num_windows", wholeLiteral c.windows)]

/-- The whole numbers in the text of a cluster. -/
def Cluster.wholes (c : Cluster Float) : List Int :=
  c.windows :: c.brokers.flatMap fun b => b.id :: b.replicas.map fun r => r.partition.partition

/-- The text of a cluster, if all its whole numbers have texts. -/
def Cluster.literal? (c : Cluster Float) : Except Document.LiteralError String := do
  let _ ← c.wholes.mapM Document.wholeText?
  return c.literal

/-- The text of a resource. -/
def Resource.literal (r : Resource) : String :=
  "<Resource." ++ r.symbol ++ ": " ++
    sequenceLiteral [Text.quoted r.wireName, flagLiteral r.isShared] ++ ">"

/-- The text of a fixed map from resources to numbers. -/
def PerResource.literal (v : PerResource Float) : String :=
  let entries := Resource.all.map fun r => r.literal ++ ": " ++ amountLiteral (v.get r)
  "mappingproxy(\x7b" ++ ", ".intercalate entries ++ "\x7d)"

/-- The text of a constraint. -/
def Constraint.literal (c : Constraint Float) : String :=
  recordLiteral "BalancingConstraint"
    [("balance_percentages", c.percentage.literal), ("capacity_thresholds", c.threshold.literal)]

end ClusterBalance
