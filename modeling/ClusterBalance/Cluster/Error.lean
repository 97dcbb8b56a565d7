import ClusterBalance.Cluster
import ClusterBalance.Document.Literal
import ClusterBalance.ErrorClass

/-! What is wrong with a cluster snapshot, and how it is said. -/

namespace ClusterBalance

/-- Why a snapshot, or a part of it, is refused. -/
inductive SnapshotError where
  | malformed
  | notObjectFile (file : String)
  | noMember (kind : String)
  | noBrokerList
  | ratioNotNumeric (value : Document)
  | brokerNotObject (value : Document)
  | replicasNotList (broker : Int) (value : Document)
  | replicaNotObject (broker : String) (value : Document)
  | vectorNotObject (value : Document)
  | amountNotNumeric (key : LooseText) (value : Document)
  | missingKey (key : String)
  | notString (key : String) (value : Document)
  | notInteger (key : String) (value : Document)
  | notBoolean (key : String) (value : Document)
  | noLiteral (cause : Document.LiteralError)
  | unknownResource (name : LooseText)
  | negativeAmount (resource : Resource) (value : Float)
  | tooLarge
  | partition (refusal : TopicPartition.Refusal)
  | broker (refusal : Broker.Refusal)
  | cluster (refusal : Cluster.Refusal)

/-- The text of a refused partition. -/
def TopicPartition.Refusal.message : TopicPartition.Refusal → String
  | emptyTopic => "Topic name cannot be empty"
  | negativePartition n => "Partition must be non-negative, got " ++ toString n

/-- The values that the text of a refused partition quotes. -/
def TopicPartition.Refusal.quotes : TopicPartition.Refusal → List Document
  | emptyTopic => []
  | negativePartition n => [.int n]

/-- The text of a refused broker. -/
def Broker.Refusal.message : Broker.Refusal → String
  | negativeId id => "Broker id must be non-negative, got " ++ toString id
  | misplaced partition claimed placed =>
    "Replica " ++ partition.name.shown ++ " claims broker " ++ toString claimed ++
      " but is placed on broker " ++ toString placed
  | tooManyDigits => Document.LiteralError.tooManyDigits.message

/-- The values that the text of a refused broker quotes. -/
def Broker.Refusal.quotes : Broker.Refusal → List Document
  | negativeId id => [.int id]
  | misplaced partition claimed placed => [.int partition.partition, .int claimed, .int placed]
  | tooManyDigits => []

/-- The text of a refused cluster. -/
def Cluster.Refusal.message : Cluster.Refusal → String
  | ratioOutside ratio =>
    "Monitored partitions ratio must be within [0, 1], got " ++ Decimal.plain.write ratio
  | negativeWindows n => "Number of windows must be non-negative, got " ++ toString n
  | repeatedBroker id => "Duplicate broker id: " ++ toString id
  | repeatedLeader partition =>
    "Partition " ++ partition.name.shown ++ " has more than one leader"

/-- The values that the text of a refused cluster quotes. -/
def Cluster.Refusal.quotes : Cluster.Refusal → List Document
  | ratioOutside _ => []
  | negativeWindows n => [.int n]
  | repeatedBroker id => [.int id]
  | repeatedLeader partition => [.int partition.partition]

namespace SnapshotError

/-- The class of a refusal. -/
def errorClass : SnapshotError → ErrorClass
  | malformed => .malformedJson
  | noMember _ => .missingMember
  | missingKey _ => .missingKey
  | noLiteral cause => cause.errorClass
  | tooLarge => .overflow
  | _ => .invalidValue

/-- The text of a refusal. -/
def message : SnapshotError → String
  | malformed => "malformed JSON"
  | notObjectFile file => "Cluster snapshot " ++ file ++ " must be a JSON object"
  | noMember kind => "'" ++ kind ++ "' object has no attribute 'get'"
  | noBrokerList => "Cluster snapshot must contain a 'brokers' list"
  | ratioNotNumeric value =>
    "'monitored_partitions_ratio' must be numeric, got " ++ value.literal
  | brokerNotObject value => "Broker entry must be an object, got " ++ value.literal
  | replicasNotList id value =>
    "'replicas' of broker " ++ toString id ++ " must be a list, got " ++ value.literal
  | replicaNotObject id value =>
    "Replica entry of broker " ++ id ++ " must be an object, got " ++ value.literal
  | vectorNotObject value => "resource values must be an object, got " ++ value.literal
  | amountNotNumeric key value =>
    "Value for " ++ key.quoted ++ " must be numeric, got " ++ value.literal
  | missingKey key => Text.quoted key
  | notString key value => "'" ++ key ++ "' must be a string, got " ++ value.literal
  | notInteger key value => "'" ++ key ++ "' must be an integer, got " ++ value.literal
  | notBoolean key value => "'" ++ key ++ "' must be true or false, got " ++ value.literal
  | noLiteral cause => cause.message
  | unknownResource name => "Unknown resource: " ++ name.quoted
  | negativeAmount resource value =>
    resource.wireName ++ " value must be non-negative, got " ++ Decimal.plain.write value
  | tooLarge => ArithmeticError.wholeTooLarge.message
  | partition refusal => refusal.message
  | broker refusal => refusal.message
  | cluster refusal => refusal.message

/-- The values that the text of a refusal quotes, in the order in which they are written out. -/
def quotes : SnapshotError → List Document
  | ratioNotNumeric value | brokerNotObject value | replicaNotObject _ value
  | vectorNotObject value | amountNotNumeric _ value | notString _ value | notInteger _ value
  | notBoolean _ value => [value]
  | replicasNotList id value => [.int id, value]
  | partition refusal => refusal.quotes
  | broker refusal => refusal.quotes
  | cluster refusal => refusal.quotes
  | _ => []

end SnapshotError

end ClusterBalance
