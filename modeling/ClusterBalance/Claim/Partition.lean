import ClusterBalance.Document.Comparison
import ClusterBalance.Document.Literal
import ClusterBalance.Sorting
import ClusterBalance.TopicPartition

/-! Partitions that are claimed by any two values in the places of a topic and a number. The
conditions on them are those on partitions, as far as the values admit them. -/

namespace ClusterBalance

/-- A claimed partition. -/
structure PartitionClaim where
  topic : Document
  number : Document

/-- Why a claim to a partition or to a broker is refused. -/
inductive ClaimError where
  | emptyTopic
  | negativePartition (number : Document)
  | negativeId (id : Document)
  | misplaced (partition : PartitionClaim) (claimed placed : Document)
  | misuse (cause : Misuse)
  | noLiteral (cause : Document.LiteralError)

namespace PartitionClaim

/-- The name of a partition with some texts for its topic and its number. -/
def nameOf (topic number : LooseText) : LooseText := (topic.append "-").append number

/-- The name of a claimed partition. -/
def name (p : PartitionClaim) : LooseText := nameOf p.topic.wording p.number.wording

/-- The name of a claimed partition, if its topic and its number have texts. -/
def name? [Limits] (p : PartitionClaim) : Except Document.LiteralError LooseText := do
  return nameOf (← p.topic.wording?) (← p.number.wording?)

/-- The partition that a topic and a number claim. -/
def make (topic number : Document) : Except ClaimError PartitionClaim :=
  if topic.isSet then
    match number.holds .less (.int 0) with
    | .ok false => .ok ⟨topic, number⟩
    | .ok true => .error (.negativePartition number)
    | .error cause => .error (.misuse cause)
  else .error .emptyTopic

/-- Whether two claims are to the same partition. -/
def same (p q : PartitionClaim) : Bool := p.topic.equals q.topic && p.number.equals q.number

/-- Whether a claimed partition comes before another: by topic, then by number. -/
def before (p q : PartitionClaim) : Except Misuse Bool :=
  if p.topic.equals q.topic then
    if p.number.equals q.number then .ok false else p.number.holds .less q.number
  else p.topic.holds .less q.topic

/-- A list of claimed partitions in their order. -/
def sort (ps : List PartitionClaim) : Except Misuse (List PartitionClaim) :=
  Sorting.sort before ps

/-- A claimed partition by which things can be looked up. -/
def requireHashable (p : PartitionClaim) : Except Misuse Unit := p.topic.requireHashable

/-- How many different partitions are claimed. -/
def countDistinct (ps : List PartitionClaim) : Except Misuse Nat := do
  ps.forM requireHashable
  return (ps.eraseDupsBy same).length

/-- Whether a claim is to the given partition. -/
def isTo (p : PartitionClaim) (partition : TopicPartition) : Bool :=
  same p ⟨.string partition.topic, .int partition.partition⟩

end PartitionClaim

namespace ClaimError

/-- The text of a refused claim, apart from its cause. -/
def message : ClaimError → String
  | emptyTopic => "Topic name cannot be empty"
  | negativePartition number => "Partition must be non-negative, got " ++ number.display
  | negativeId id => "Broker id must be non-negative, got " ++ id.display
  | misplaced partition claimed placed =>
    "Replica " ++ partition.name.shown ++ " claims broker " ++ claimed.display ++
      " but is placed on broker " ++ placed.display
  | misuse cause => cause.message
  | noLiteral cause => cause.message

/-- The values that the text of a refused claim quotes, in the order in which they are written. -/
def quotes : ClaimError → List Document
  | negativePartition number => [number]
  | negativeId id => [id]
  | misplaced partition claimed placed => [partition.topic, partition.number, claimed, placed]
  | _ => []

end ClaimError

end ClusterBalance
