import ClusterBalance.Cluster.Error
import ClusterBalance.Decimal.Mixed
import ClusterBalance.Document.Json.Writer
import ClusterBalance.Document.Number

/-! Cluster snapshots as documents: what each part of a cluster is read from and written to. The
readers check the parts in a fixed order, so that the first fault of a document decides. -/

namespace ClusterBalance

/-- The numbers that amounts are written as. -/
class Amount (α : Type) where
  /-- The document of an amount. -/
  document : α → Document

instance : Amount Float := ⟨.float⟩

instance : Amount Decimal.Mixed where
  document
    | .whole n => .int n
    | .double x => .float x

namespace Snapshot

/-- A whole number that a field has to hold. -/
def requireInteger (key : String) (fields : List (LooseText × Document)) :
    Except SnapshotError Int :=
  match Document.find? key fields with
  | none => .error (.missingKey key)
  | some (.int n) => .ok n
  | some value => .error (.notInteger key value)

/-- A truth value that a field may hold. -/
def booleanOr (key : String) (default : Bool) (fields : List (LooseText × Document)) :
    Except SnapshotError Bool :=
  match Document.find? key fields with
  | none => .ok default
  | some (.bool b) => .ok b
  | some value => .error (.notBoolean key value)

/-- A text among the parts of a snapshot. -/
def lift {β : Type} : Except Document.LiteralError β → Except SnapshotError β
  | .ok text => .ok text
  | .error cause => .error (.noLiteral cause)

/-- The text of a field, or nothing where it is absent. -/
def wordingOr [Limits] (key : String) (fields : List (LooseText × Document)) :
    Except SnapshotError LooseText :=
  lift (Document.findD key (.string "") fields).wording?

/-- A resource by its name. -/
def resourceOfKey (name : LooseText) : Except SnapshotError Resource :=
  match name.sound?.bind Resource.ofName? with
  | some r => .ok r
  | none => .error (.unknownResource name)

/-- The partition of a topic with a number. -/
def partitionOf (topic : LooseText) (partition : Int) : Except SnapshotError TopicPartition :=
  match TopicPartition.make topic partition with
  | .ok p => .ok p
  | .error refusal => .error (.partition refusal)

/-- A number as a float. -/
def floatOf (value : Document) : Except SnapshotError Float :=
  match value.number with
  | .number x => .ok x
  | _ => .error .tooLarge

end Snapshot

open Snapshot

namespace LoadVector

/-- Sets the amount that one field names. -/
def putField (v : LoadVector Float) : LooseText × Document → Except SnapshotError (LoadVector Float)
  | (key, value) =>
    match value.number with
    | .notNumeric => .error (.amountNotNumeric key value)
    | .tooLarge => .error .tooLarge
    | .number x => return v.set (← resourceOfKey key) x

/-- A vector whose amounts are not below zero. -/
def make (v : LoadVector Float) : Except SnapshotError (LoadVector Float) :=
  match v.negative? with
  | some r => .error (.negativeAmount r (v.get r))
  | none => .ok v

/-- The vector of a document; what it leaves out is zero. -/
def ofDocument : Document → Except SnapshotError (LoadVector Float)
  | .object fields => do make (← fields.foldlM putField empty)
  | other => .error (.vectorNotObject other)

/-- The document of a vector. -/
def toDocument {α : Type} [Amount α] (v : LoadVector α) : Document :=
  .ofFields (v.map Amount.document).toFields

end LoadVector

namespace Replica

/-- The topic that a replica has to name. -/
def requireTopic (fields : List (LooseText × Document)) : Except SnapshotError LooseText :=
  match Document.find? "topic" fields with
  | none => .error (.missingKey "topic")
  | some (.string topic) => .ok topic
  | some value => .error (.notString "topic" value)

/-- The replica that some fields describe. -/
def ofFields (fields : List (LooseText × Document)) : Except SnapshotError (Replica Float) := do
  let topic ← requireTopic fields
  let number ← requireInteger "partition" fields
  let partition ← partitionOf topic number
  let leader ← booleanOr "leader" false fields
  let load ← LoadVector.ofDocument (Document.findD "load" (.object []) fields)
  let offline ← booleanOr "offline" false fields
  return { partition, leader, load, offline }

/-- The replica of a document, on a broker. The id of the broker is written out for every entry,
whether the entry is refused or not. -/
def ofDocument (broker : Int) (entry : Document) : Except SnapshotError (Replica Float) := do
  let id ← lift (Document.wholeText? broker)
  match entry with
  | .object fields => ofFields fields
  | other => throw (.replicaNotObject id other)

/-- The document of a replica. -/
def toDocument {α : Type} [Amount α] (r : Replica α) : Document :=
  .object
    [("topic", .string r.partition.topic), ("partition", .int r.partition.partition),
      ("leader", .bool r.leader), ("offline", .bool r.offline), ("load", r.load.toDocument)]

end Replica

namespace Broker

/-- A broker from its parts, as part of a snapshot. -/
def ofParts (id : Int) (capacity : LoadVector Float) (replicas : List (Int × Replica Float))
    (host rack : LooseText) (alive : Bool) : Except SnapshotError (Broker Float) :=
  match make id capacity replicas host rack alive with
  | .ok b => .ok b
  | .error refusal => .error (.broker refusal)

/-- The replicas of a broker's document. -/
def replicaItems (id : Int) (fields : List (LooseText × Document)) :
    Except SnapshotError (List Document) :=
  match Document.findD "replicas" (.list []) fields with
  | .list items => .ok items
  | other => .error (.replicasNotList id other)

/-- The broker of a document. -/
def ofDocument [Limits] : Document → Except SnapshotError (Broker Float)
  | .object fields => do
    let id ← requireInteger "id" fields
    let items ← replicaItems id fields
    let capacity ← LoadVector.ofDocument (Document.findD "capacity" (.object []) fields)
    let replicas ← items.mapM (Replica.ofDocument id)
    let host ← wordingOr "host" fields
    let rack ← wordingOr "rack" fields
    let alive ← booleanOr "alive" true fields
    ofParts id capacity (replicas.map (id, ·)) host rack alive
  | other => .error (.brokerNotObject other)

/-- The document of a broker. -/
def toDocument {α : Type} [Amount α] (b : Broker α) : Document :=
  .object
    [("id", .int b.id), ("host", .string b.host), ("rack", .string b.rack),
      ("alive", .bool b.alive), ("capacity", b.capacity.toDocument),
      ("replicas", .list (b.replicas.map Replica.toDocument))]

end Broker

namespace Cluster

/-- The share of monitored partitions has to be a number. -/
def requireRatio (value : Document) : Except SnapshotError Unit :=
  match value.number with
  | .notNumeric => .error (.ratioNotNumeric value)
  | _ => .ok ()

/-- The number of windows in a snapshot. -/
def windowsField (fields : List (LooseText × Document)) : Except SnapshotError Int :=
  match Document.findD "num_windows" (.int 1) fields with
  | .int n => .ok n
  | other => .error (.notInteger "num_windows" other)

/-- The cluster of a document. -/
def ofDocument [Limits] : Document → Except SnapshotError (Cluster Float)
  | .object fields =>
    match Document.find? "brokers" fields with
    | some (.list items) => do
      let share := Document.findD "monitored_partitions_ratio" (.float 1.0) fields
      requireRatio share
      let windows ← windowsField fields
      let ratio ← floatOf share
      let brokers ← items.mapM Broker.ofDocument
      match make brokers ratio windows with
      | .ok c => .ok c
      | .error refusal => .error (.cluster refusal)
    | _ => .error .noBrokerList
  | other => .error (.noMember other.kindName)

/-- The document of a cluster. -/
def toDocument {α : Type} [Amount α] (c : Cluster α) : Document :=
  .object
    [("monitored_partitions_ratio", .float c.monitoredRatio), ("num_windows", .int c.windows),
      ("brokers", .list (c.brokers.map Broker.toDocument))]

/-- The cluster of the text of a snapshot file. -/
def ofText [Limits] (file text : String) : Except SnapshotError (Cluster Float) :=
  match Document.Json.read? Document.Json.strict text with
  | none => .error .malformed
  | some (.object fields) => ofDocument (.object fields)
  | some _ => .error (.notObjectFile file)

/-- The cluster of a snapshot file, whose text is there if its bytes make one. -/
def ofFile [Limits] (file : String) : Option String → Except SnapshotError (Cluster Float)
  | some text => ofText file text
  | none => .error .malformed

/-- The text of a snapshot file. -/
def toText? (c : Cluster Float) : Except Document.Json.WriteError String :=
  Document.Json.write? (.indented 0) c.toDocument

end Cluster

end ClusterBalance
