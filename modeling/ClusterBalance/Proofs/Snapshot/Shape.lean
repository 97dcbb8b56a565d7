import ClusterBalance.Cluster.Snapshot
import ClusterBalance.Proofs.Document.Literal

/-! The shape of a cluster snapshot: what its values have to be, apart from how they are read. -/

namespace ClusterBalance.Snapshot

open Document

/-- The field of an entry. -/
def fieldOf? (key : String) : Document → Option Document
  | .object fields => find? key fields
  | _ => none

/-- The items of a list. -/
def itemsOf : Option Document → List Document
  | some (.list items) => items
  | _ => []

/-- A truth value, or nothing. -/
def IsFlag (value? : Option Document) : Prop := ∀ value, value? = some value → ∃ b, value = .bool b

/-- A whole number that is not negative. -/
def IsCount (value? : Option Document) : Prop := ∃ n, value? = some (.int n) ∧ 0 ≤ n

/-- The double of a number. A truth value is no number, and a whole number may be too large. -/
inductive Denotes : Document → Float → Prop
  | float (x : Float) : Denotes (.float x) x
  | whole (n : Int) (x : Float) (h : Decimal.ofWhole? n = some x) : Denotes (.int n) x

/-- A key names a resource. -/
def Names (key : LooseText) (r : Resource) : Prop := key.sound?.bind Resource.ofName? = some r

/-- An amount of each resource: every key names a resource, every value is a number, and of the
numbers for one resource the last is not negative. -/
structure AreAmounts (fields : List (LooseText × Document)) : Prop where
  keys : ∀ field ∈ fields, ∃ r, Names field.1 r
  numbers : ∀ field ∈ fields, ∃ x, Denotes field.2 x
  last : ∀ before key value after r x, fields = before ++ (key, value) :: after → Names key r →
    (∀ field ∈ after, ¬Names field.1 r) → Denotes value x → ¬x < 0.0

/-- An object of amounts, or nothing. -/
def IsVector (value? : Option Document) : Prop :=
  ∀ value, value? = some value → ∃ fields, value = .object fields ∧ AreAmounts fields

/-- The entry of a replica. -/
structure IsReplica (entry : Document) : Prop where
  object : ∃ fields, entry = .object fields
  topic : ∃ t : LooseText, fieldOf? "topic" entry = some (.string t) ∧ t ≠ ""
  partition : IsCount (fieldOf? "partition" entry)
  leader : IsFlag (fieldOf? "leader" entry)
  offline : IsFlag (fieldOf? "offline" entry)
  load : IsVector (fieldOf? "load" entry)

/-- The replica entries of a broker entry. -/
def replicaEntries (entry : Document) : List Document := itemsOf (fieldOf? "replicas" entry)

/-- The entry of a broker. -/
structure IsBroker (entry : Document) : Prop where
  object : ∃ fields, entry = .object fields
  id : IsCount (fieldOf? "id" entry)
  alive : IsFlag (fieldOf? "alive" entry)
  capacity : IsVector (fieldOf? "capacity" entry)
  replicas : ∀ value, fieldOf? "replicas" entry = some value → ∃ items, value = .list items
  each : ∀ replica ∈ replicaEntries entry, IsReplica replica

/-- Whether a replica entry is that of a leader. -/
def leads (entry : Document) : Bool :=
  match fieldOf? "leader" entry with
  | some (.bool b) => b
  | _ => false

/-- The topic and the number that a replica entry names. -/
def partitionEntry (entry : Document) : Option Document × Option Document :=
  (fieldOf? "topic" entry, fieldOf? "partition" entry)

/-- The partitions of the leaders among the replica entries of some broker entries. -/
def ledEntries (entries : List Document) : List (Option Document × Option Document) :=
  entries.flatMap fun entry => ((replicaEntries entry).filter leads).map partitionEntry

/-- The broker entries of a snapshot. -/
def brokerEntries (fields : List (LooseText × Document)) : List Document :=
  itemsOf (find? "brokers" fields)

/-- The fields of a snapshot. -/
structure IsSnapshot (fields : List (LooseText × Document)) : Prop where
  brokers : ∃ items, find? "brokers" fields = some (.list items)
  ratio : ∀ value, find? "monitored_partitions_ratio" fields = some value →
    (∃ n, value = .int n ∧ 0 ≤ n ∧ n ≤ 1) ∨ ∃ x, value = .float x ∧ 0.0 ≤ x ∧ x ≤ 1.0
  windows : ∀ value, find? "num_windows" fields = some value → ∃ n, value = .int n ∧ 0 ≤ n
  each : ∀ entry ∈ brokerEntries fields, IsBroker entry
  ids : ((brokerEntries fields).map (fieldOf? "id")).Nodup
  leaders : (ledEntries (brokerEntries fields)).Nodup

/-- The host and the rack of a broker entry can be written, and so can the id where the host is
named after it or where there are replicas. -/
structure IsWritable [Limits] (entry : Document) : Prop where
  host : ∀ value, fieldOf? "host" entry = some value → value.HasLiteral
  rack : ∀ value, fieldOf? "rack" entry = some value → value.HasLiteral
  id : ∀ n, fieldOf? "id" entry = some (.int n) →
    ((fieldOf? "host" entry).getD (.string "")).wording = "" ∨ replicaEntries entry ≠ [] →
      n.natAbs < digitLimit

end ClusterBalance.Snapshot
