import ClusterBalance.Text.Loose

/-! Partitions of topics: their names, their order, and the two conditions on them. -/

namespace ClusterBalance

/-- A partition of a topic. -/
structure TopicPartition where
  topic : LooseText
  partition : Nat
  topic_ne_empty : topic ≠ ""
  deriving DecidableEq

namespace TopicPartition

/-- Why a topic and a number name no partition. -/
inductive Refusal where
  | emptyTopic
  | negativePartition (partition : Int)
  deriving DecidableEq, Repr

/-- The partition of a topic with a number. -/
def make (topic : LooseText) (partition : Int) : Except Refusal TopicPartition :=
  if h : topic = "" then .error .emptyTopic
  else if partition < 0 then .error (.negativePartition partition)
  else .ok ⟨topic, partition.toNat, h⟩

/-- The name of a partition. -/
def name (p : TopicPartition) : LooseText := p.topic.append ("-" ++ toString p.partition)

/-- The order of partitions: by topic, code point by code point, then by number. -/
def le (p q : TopicPartition) : Bool :=
  p.topic < q.topic || (p.topic = q.topic && p.partition ≤ q.partition)

/-- A list of partitions in their order. -/
def sort (ps : List TopicPartition) : List TopicPartition := ps.mergeSort le

end TopicPartition

end ClusterBalance
