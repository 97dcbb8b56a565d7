import ClusterBalance.Proofs.Cluster.Admission
import ClusterBalance.Proofs.Decimal.Whole
import ClusterBalance.Proofs.Snapshot.Vector

/-! Which snapshots describe a cluster. Main statement: those of the right shape, as far as their
hosts, their racks and the ids of their brokers can be written. -/

namespace ClusterBalance.Snapshot

open Document

section Fields

variable {fields : List (LooseText × Document)} {key : String}

theorem requireInteger_eq_ok_iff {n : Int} :
    requireInteger key fields = .ok n ↔ find? key fields = some (.int n) := by
  unfold requireInteger
  cases find? key fields with
  | none => simp
  | some value => cases value <;> simp

theorem booleanOr_eq_ok_iff {default b : Bool} :
    booleanOr key default fields = .ok b ↔
      find? key fields = none ∧ b = default ∨ find? key fields = some (.bool b) := by
  unfold booleanOr
  cases find? key fields with
  | none => simp [eq_comm]
  | some value => cases value <;> simp

theorem exists_booleanOr_iff {default : Bool} :
    (∃ b, booleanOr key default fields = .ok b) ↔ IsFlag (find? key fields) := by
  simp only [booleanOr_eq_ok_iff, IsFlag]
  cases find? key fields <;> simp

theorem lift_eq_ok_iff {β : Type} {x : Except LiteralError β} {y : β} :
    lift x = .ok y ↔ x = .ok y := by
  cases x <;> simp [lift]

theorem exists_wordingOr_iff [Limits] :
    (∃ text, wordingOr key fields = .ok text) ↔
      ∀ value, find? key fields = some value → value.HasLiteral := by
  simp only [wordingOr, lift_eq_ok_iff, exists_wording?_eq_ok_iff, findD]
  cases find? key fields with
  | none => exact iff_of_true ⟨Nat.succ_le_succ (Nat.zero_le _), nofun⟩ nofun
  | some value => simp

theorem wordingOr_eq_wording [Limits] {text : LooseText} (h : wordingOr key fields = .ok text) :
    text = (findD key (.string "") fields).wording :=
  eq_wording_of_wording? (lift_eq_ok_iff.mp h)

theorem requireTopic_eq_ok_iff {t : LooseText} :
    Replica.requireTopic fields = .ok t ↔ find? "topic" fields = some (.string t) := by
  unfold Replica.requireTopic
  cases find? "topic" fields with
  | none => simp
  | some value => cases value <;> simp

theorem partitionOf_of_nonneg {topic : LooseText} {n : Int} (htopic : topic ≠ "") (hn : 0 ≤ n) :
    partitionOf topic n = .ok ⟨topic, n.toNat, htopic⟩ := by
  rw [partitionOf, TopicPartition.make, dif_neg htopic, if_neg (Int.not_lt.mpr hn)]

theorem exists_partitionOf_iff {topic : LooseText} {n : Int} :
    (∃ p, partitionOf topic n = .ok p) ↔ topic ≠ "" ∧ 0 ≤ n := by
  constructor
  · rintro ⟨p, h⟩
    unfold partitionOf TopicPartition.make at h
    by_cases htopic : topic = ""
    · simp [htopic] at h
    by_cases hn : n < 0
    · simp [htopic, hn] at h
    · exact ⟨htopic, Int.not_lt.mp hn⟩
  · rintro ⟨htopic, hn⟩
    exact ⟨_, partitionOf_of_nonneg htopic hn⟩

theorem partitionOf_eq_ok {topic : LooseText} {n : Int} {p : TopicPartition}
    (h : partitionOf topic n = .ok p) : p.topic = topic ∧ (p.partition : Int) = n := by
  obtain ⟨htopic, hn⟩ := exists_partitionOf_iff.mp ⟨p, h⟩
  rw [partitionOf_of_nonneg htopic hn] at h
  cases h
  exact ⟨rfl, Int.toNat_of_nonneg hn⟩

end Fields

/-- The id of the broker is written out first, whatever the entry. -/
theorem replica_eq_ok_iff {broker : Int} {entry : Document} {r : Replica Float} :
    Replica.ofDocument broker entry = .ok r ↔
      broker.natAbs < digitLimit ∧ ∃ fields, entry = .object fields ∧
        Replica.ofFields fields = .ok r := by
  rcases Nat.lt_or_ge broker.natAbs digitLimit with h | h
  · rw [Replica.ofDocument, wholeText?_of_lt h, and_iff_right h]
    cases entry with
    | object fields => simp [lift, ok_bind]
    | _ => exact iff_of_false nofun (by rintro ⟨_, ⟨⟩, _⟩)
  · rw [Replica.ofDocument, wholeText?_of_le h]
    exact iff_of_false nofun fun hlt => Nat.not_lt.mpr h hlt.1

/-- The parts of a replica, each in the field that it is read from. -/
structure ReplicaRead (fields : List (LooseText × Document)) (r : Replica Float) : Prop where
  topic : find? "topic" fields = some (.string r.partition.topic)
  partition : find? "partition" fields = some (.int r.partition.partition)
  leader : booleanOr "leader" false fields = .ok r.leader
  load : LoadVector.ofDocument (findD "load" (.object []) fields) = .ok r.load
  offline : booleanOr "offline" false fields = .ok r.offline

theorem ofFields_eq_ok_iff {fields : List (LooseText × Document)} {r : Replica Float} :
    Replica.ofFields fields = .ok r ↔ ReplicaRead fields r := by
  constructor
  · intro h
    obtain ⟨topic, htopic, h⟩ := bind_eq_ok_iff.mp h
    obtain ⟨n, hn, h⟩ := bind_eq_ok_iff.mp h
    obtain ⟨p, hp, h⟩ := bind_eq_ok_iff.mp h
    obtain ⟨leader, hleader, h⟩ := bind_eq_ok_iff.mp h
    obtain ⟨load, hload, h⟩ := bind_eq_ok_iff.mp h
    obtain ⟨offline, hoffline, h⟩ := bind_eq_ok_iff.mp h
    cases h
    obtain ⟨rfl, rfl⟩ := partitionOf_eq_ok hp
    exact ⟨requireTopic_eq_ok_iff.mp htopic, requireInteger_eq_ok_iff.mp hn, hleader, hload,
      hoffline⟩
  · intro h
    have hp := partitionOf_of_nonneg r.partition.topic_ne_empty
      (Int.natCast_nonneg r.partition.partition)
    exact bind_eq_ok_iff.mpr ⟨_, requireTopic_eq_ok_iff.mpr h.topic,
      bind_eq_ok_iff.mpr ⟨_, requireInteger_eq_ok_iff.mpr h.partition,
      bind_eq_ok_iff.mpr ⟨_, hp, bind_eq_ok_iff.mpr ⟨_, h.leader,
      bind_eq_ok_iff.mpr ⟨_, h.load, bind_eq_ok_iff.mpr ⟨_, h.offline, rfl⟩⟩⟩⟩⟩⟩

theorem exists_replica_iff {broker : Int} {entry : Document} :
    (∃ r, Replica.ofDocument broker entry = .ok r) ↔
      broker.natAbs < digitLimit ∧ IsReplica entry := by
  simp only [replica_eq_ok_iff, ofFields_eq_ok_iff, exists_and_left]
  refine and_congr_right fun _ => ?_
  constructor
  · rintro ⟨r, fields, rfl, h⟩
    exact {
      object := ⟨fields, rfl⟩
      topic := ⟨_, h.topic, r.partition.topic_ne_empty⟩
      partition := ⟨_, h.partition, Int.natCast_nonneg _⟩
      leader := exists_booleanOr_iff.mp ⟨_, h.leader⟩
      offline := exists_booleanOr_iff.mp ⟨_, h.offline⟩
      load := exists_ofDocument_findD_iff.mp ⟨_, h.load⟩ }
  · intro h
    obtain ⟨fields, rfl⟩ := h.object
    obtain ⟨topic, htopic, hne⟩ := h.topic
    obtain ⟨n, hn, hnonneg⟩ := h.partition
    obtain ⟨leader, hleader⟩ := exists_booleanOr_iff.mpr h.leader
    obtain ⟨load, hload⟩ := exists_ofDocument_findD_iff.mpr h.load
    obtain ⟨offline, hoffline⟩ := exists_booleanOr_iff.mpr h.offline
    obtain ⟨number, rfl⟩ := Int.eq_ofNat_of_zero_le hnonneg
    exact ⟨⟨⟨topic, number, hne⟩, leader, load, offline⟩, fields, rfl,
      ⟨htopic, hn, hleader, hload, hoffline⟩⟩

/-- What a replica entry has in the fields that name a partition. -/
def partitionFields (p : TopicPartition) : Option Document × Option Document :=
  (some (.string p.topic), some (.int p.partition))

theorem partitionFields_injective : Function.Injective partitionFields := by
  rintro ⟨t, n, _⟩ ⟨t', n', _⟩ h
  obtain ⟨rfl, hn⟩ : t = t' ∧ (n : Int) = n' := by simpa [partitionFields] using h
  obtain rfl : n = n' := by omega
  rfl

/-- A replica leads the partition that its entry names, if the entry says that it leads. -/
theorem replica_eq {broker : Int} {entry : Document} {r : Replica Float}
    (h : Replica.ofDocument broker entry = .ok r) :
    (r.leader, partitionFields r.partition) = (leads entry, partitionEntry entry) := by
  obtain ⟨-, fields, rfl, hfields⟩ := replica_eq_ok_iff.mp h
  have hread := ofFields_eq_ok_iff.mp hfields
  have hnames : partitionEntry (.object fields) = partitionFields r.partition :=
    Prod.ext hread.topic hread.partition
  rcases booleanOr_eq_ok_iff.mp hread.leader with ⟨hfield, hleader⟩ | hfield
  · simp [leads, fieldOf?, hfield, hleader, hnames]
  · simp [leads, fieldOf?, hfield, hnames]

theorem replicaItems_eq_ok_iff {id : Int} {fields : List (LooseText × Document)}
    {items : List Document} :
    Broker.replicaItems id fields = .ok items ↔
      (∀ value, find? "replicas" fields = some value → ∃ items, value = .list items) ∧
        items = replicaEntries (.object fields) := by
  simp only [Broker.replicaItems, findD, replicaEntries, fieldOf?, itemsOf]
  cases find? "replicas" fields with
  | none => simp [eq_comm]
  | some value => cases value <;> simp [eq_comm]

/-- The host that a broker has in the end. -/
def hostFor (id : Nat) (name : LooseText) : LooseText :=
  if name = "" then Broker.defaultHost (toString id) else name

theorem hostNamed_eq_ok_iff {id : Nat} {name host : LooseText} :
    Broker.hostNamed id name = .ok host ↔
      (name = "" → id < digitLimit) ∧ host = hostFor id name := by
  unfold Broker.hostNamed hostFor
  by_cases hname : name = ""
  · rcases Nat.lt_or_ge id digitLimit with h | h
    · have htext : wholeText? id = .ok (toString id) := wholeText?_of_lt h
      simp [hname, htext, h, eq_comm]
    · have htext : wholeText? id = .error .tooManyDigits := wholeText?_of_le h
      simp [hname, htext, Nat.not_lt.mpr h]
  · simp [hname, eq_comm]

/-- Replicas that claim their own broker make one, if the id is not negative and a host that is
named after it can be. -/
theorem ofParts_eq_ok_iff {id : Int} {capacity : LoadVector Float} {rs : List (Replica Float)}
    {host rack : LooseText} {alive : Bool} {b : Broker Float} :
    Broker.ofParts id capacity (rs.map (id, ·)) host rack alive = .ok b ↔
      0 ≤ id ∧ (host = "" → id.natAbs < digitLimit) ∧
        b = ⟨id.toNat, capacity, rs, hostFor id.toNat host, rack, alive⟩ := by
  have hplaced : (rs.map (id, ·)).find? (fun (claimed, _) => claimed ≠ id) = none := by
    simp
  have hreplicas : (rs.map (id, ·)).map Prod.snd = rs := by
    simp [Function.comp_def]
  unfold Broker.ofParts Broker.make
  by_cases hid : id < 0
  · have hnot : ¬0 ≤ id := Int.not_le.mpr hid
    simp [hid, hnot]
  have habs : id.natAbs = id.toNat := by omega
  have hnamed (name : LooseText) := @hostNamed_eq_ok_iff id.toNat host name
  rw [if_neg hid, hplaced, hreplicas, habs]
  cases hhost : Broker.hostNamed id.toNat host with
  | error refusal =>
    rw [hhost] at hnamed
    refine iff_of_false nofun ?_
    rintro ⟨-, hlt, -⟩
    exact nomatch (hnamed _).mpr ⟨hlt, rfl⟩
  | ok name =>
    obtain ⟨hlt, rfl⟩ := (hnamed name).mp hhost
    simp only [ok_bind, pure, Except.pure, Except.ok.injEq, Int.not_lt.mp hid, true_and,
      and_iff_right hlt, eq_comm]

/-- The parts of a broker, each in the field that it is read from. -/
structure BrokerRead [Limits] (fields : List (LooseText × Document)) (b : Broker Float) :
    Prop where
  id : find? "id" fields = some (.int b.id)
  capacity : LoadVector.ofDocument (findD "capacity" (.object []) fields) = .ok b.capacity
  list : ∀ value, find? "replicas" fields = some value → ∃ items, value = .list items
  replicas : (replicaEntries (.object fields)).mapM (Replica.ofDocument b.id) = .ok b.replicas
  host : ∃ name, wordingOr "host" fields = .ok name ∧ (name = "" → b.id < digitLimit) ∧
    b.host = hostFor b.id name
  rack : wordingOr "rack" fields = .ok b.rack
  alive : booleanOr "alive" true fields = .ok b.alive

theorem broker_eq_ok_iff [Limits] {entry : Document} {b : Broker Float} :
    Broker.ofDocument entry = .ok b ↔ ∃ fields, entry = .object fields ∧ BrokerRead fields b := by
  cases entry with
  | object fields =>
    constructor
    · intro h
      obtain ⟨id, hid, h⟩ := bind_eq_ok_iff.mp h
      obtain ⟨items, hitems, h⟩ := bind_eq_ok_iff.mp h
      obtain ⟨capacity, hcapacity, h⟩ := bind_eq_ok_iff.mp h
      obtain ⟨rs, hrs, h⟩ := bind_eq_ok_iff.mp h
      obtain ⟨host, hhost, h⟩ := bind_eq_ok_iff.mp h
      obtain ⟨rack, hrack, h⟩ := bind_eq_ok_iff.mp h
      obtain ⟨alive, halive, h⟩ := bind_eq_ok_iff.mp h
      obtain ⟨hnonneg, hnamed, rfl⟩ := ofParts_eq_ok_iff.mp h
      obtain ⟨hlist, rfl⟩ := replicaItems_eq_ok_iff.mp hitems
      obtain ⟨n, rfl⟩ := Int.eq_ofNat_of_zero_le hnonneg
      exact ⟨fields, rfl, {
        id := requireInteger_eq_ok_iff.mp hid
        capacity := hcapacity
        list := hlist
        replicas := hrs
        host := ⟨host, hhost, hnamed, rfl⟩
        rack := hrack
        alive := halive }⟩
    · rintro ⟨_, ⟨⟩, h⟩
      obtain ⟨host, hhost, hnamed, heq⟩ := h.host
      have hparts : Broker.ofParts b.id b.capacity (b.replicas.map ((b.id : Int), ·)) host b.rack
          b.alive = .ok b := by
        refine ofParts_eq_ok_iff.mpr ⟨Int.natCast_nonneg _, hnamed, ?_⟩
        rw [Int.toNat_natCast, ← heq]
      exact bind_eq_ok_iff.mpr ⟨_, requireInteger_eq_ok_iff.mpr h.id,
        bind_eq_ok_iff.mpr ⟨_, replicaItems_eq_ok_iff.mpr ⟨h.list, rfl⟩,
        bind_eq_ok_iff.mpr ⟨_, h.capacity, bind_eq_ok_iff.mpr ⟨_, h.replicas,
        bind_eq_ok_iff.mpr ⟨_, hhost, bind_eq_ok_iff.mpr ⟨_, h.rack,
        bind_eq_ok_iff.mpr ⟨_, h.alive, hparts⟩⟩⟩⟩⟩⟩⟩
  | _ => exact iff_of_false nofun (by rintro ⟨_, ⟨⟩, _⟩)

theorem exists_broker_iff [Limits] {entry : Document} :
    (∃ b, Broker.ofDocument entry = .ok b) ↔ IsBroker entry ∧ IsWritable entry := by
  simp only [broker_eq_ok_iff]
  constructor
  · rintro ⟨b, fields, rfl, h⟩
    obtain ⟨host, hhost, hnamed, -⟩ := h.host
    have heach := exists_mapM_eq_ok_iff.mp ⟨_, h.replicas⟩
    refine ⟨{
      object := ⟨fields, rfl⟩
      id := ⟨_, h.id, Int.natCast_nonneg _⟩
      alive := exists_booleanOr_iff.mp ⟨_, h.alive⟩
      capacity := exists_ofDocument_findD_iff.mp ⟨_, h.capacity⟩
      replicas := h.list
      each := fun r hr => (exists_replica_iff.mp (heach r hr)).2 }, {
      host := exists_wordingOr_iff.mp ⟨host, hhost⟩
      rack := exists_wordingOr_iff.mp ⟨_, h.rack⟩
      id := ?_ }⟩
    intro n hn hwhere
    obtain rfl : n = b.id := by simpa [fieldOf?, h.id, eq_comm] using hn
    rcases hwhere with htext | hreplicas
    · exact hnamed ((wordingOr_eq_wording hhost).trans htext)
    · obtain ⟨r, hr⟩ := List.exists_mem_of_ne_nil _ hreplicas
      exact (exists_replica_iff.mp (heach r hr)).1
  · rintro ⟨h, hwritable⟩
    obtain ⟨fields, rfl⟩ := h.object
    obtain ⟨id, hid, hnonneg⟩ := h.id
    obtain ⟨capacity, hcapacity⟩ := exists_ofDocument_findD_iff.mpr h.capacity
    obtain ⟨rs, hrs⟩ := exists_mapM_eq_ok_iff.mpr fun r hr =>
      (@exists_replica_iff id r).mpr
        ⟨hwritable.id id hid (.inr (List.ne_nil_of_mem hr)), h.each r hr⟩
    obtain ⟨host, hhost⟩ := exists_wordingOr_iff.mpr hwritable.host
    obtain ⟨rack, hrack⟩ := exists_wordingOr_iff.mpr hwritable.rack
    obtain ⟨alive, halive⟩ := exists_booleanOr_iff.mpr h.alive
    have hnamed (hempty : host = "") : id.natAbs < digitLimit :=
      hwritable.id id hid (.inl ((wordingOr_eq_wording hhost).symm.trans hempty))
    obtain ⟨n, rfl⟩ := Int.eq_ofNat_of_zero_le hnonneg
    exact ⟨⟨n, capacity, rs, hostFor n host, rack, alive⟩, fields, rfl,
      ⟨hid, hcapacity, h.replicas, hrs, ⟨host, hhost, hnamed, rfl⟩, hrack, halive⟩⟩

/-- A broker has the id of its entry, and leads the partitions that the entry says it leads. -/
theorem broker_eq [Limits] {entry : Document} {b : Broker Float}
    (h : Broker.ofDocument entry = .ok b) :
    some (.int b.id) = fieldOf? "id" entry ∧
      (b.leaders.map (·.partition)).map partitionFields =
        ((replicaEntries entry).filter leads).map partitionEntry := by
  obtain ⟨fields, rfl, hread⟩ := broker_eq_ok_iff.mp h
  refine ⟨hread.id.symm, ?_⟩
  have heq := map_eq_of_mapM_eq_ok hread.replicas fun entry _ r hr => replica_eq hr
  have hled := congrArg (fun pairs => (pairs.filter (·.1)).map (·.2)) heq
  simpa [List.filter_map, Function.comp_def, Broker.leaders] using hled

section Cluster

variable {fields : List (LooseText × Document)}

theorem floatOf_eq_ok_iff {value : Document} {x : Float} :
    floatOf value = .ok x ↔ Denotes value x := by
  rw [← number_eq_iff, floatOf]
  cases value.number <;> simp

theorem requireRatio_of_denotes {value : Document} {x : Float} (h : Denotes value x) :
    Cluster.requireRatio value = .ok () := by
  rw [Cluster.requireRatio, number_eq_iff.mpr h]

/-- A number that denotes a double between zero and one lies there itself. -/
theorem exists_denotes_unit_iff {value : Document} :
    (∃ x, Denotes value x ∧ 0.0 ≤ x ∧ x ≤ 1.0) ↔
      (∃ n, value = .int n ∧ 0 ≤ n ∧ n ≤ 1) ∨ ∃ x, value = .float x ∧ 0.0 ≤ x ∧ x ≤ 1.0 := by
  constructor
  · rintro ⟨x, _ | ⟨n, _, hn⟩, hx⟩
    · exact .inr ⟨x, rfl, hx⟩
    · exact .inl ⟨n, rfl, (Decimal.unit_ofWhole?_iff hn).mp hx⟩
  · rintro (⟨n, rfl, hn⟩ | ⟨x, rfl, hx⟩)
    · obtain ⟨x, hx⟩ : ∃ x, Decimal.ofWhole? n = some x := by
        obtain rfl | rfl : n = 0 ∨ n = 1 := by omega
        · exact ⟨0.0, by decide +kernel⟩
        · exact ⟨1.0, by decide +kernel⟩
      exact ⟨x, .whole n x hx, (Decimal.unit_ofWhole?_iff hx).mpr hn⟩
    · exact ⟨x, .float x, hx⟩

theorem exists_ratio_iff :
    (∃ x, Denotes (findD "monitored_partitions_ratio" (.float 1.0) fields) x ∧
        0.0 ≤ x ∧ x ≤ 1.0) ↔
      ∀ value, find? "monitored_partitions_ratio" fields = some value →
        (∃ n, value = .int n ∧ 0 ≤ n ∧ n ≤ 1) ∨ ∃ x, value = .float x ∧ 0.0 ≤ x ∧ x ≤ 1.0 := by
  rw [exists_denotes_unit_iff, findD]
  cases find? "monitored_partitions_ratio" fields with
  | none => exact iff_of_true (.inr ⟨1.0, rfl, by decide +kernel, by decide +kernel⟩) nofun
  | some value => simp

theorem exists_windowsField_iff :
    (∃ n, Cluster.windowsField fields = .ok n ∧ 0 ≤ n) ↔
      ∀ value, find? "num_windows" fields = some value → ∃ n, value = .int n ∧ 0 ≤ n := by
  unfold Cluster.windowsField findD
  cases find? "num_windows" fields with
  | none => exact iff_of_true ⟨1, rfl, by decide⟩ nofun
  | some value => cases value <;> simp

/-- The ids and the led partitions of brokers are those of their entries. -/
theorem brokers_eq [Limits] {entries : List Document} {brokers : List (Broker Float)}
    (h : entries.mapM Broker.ofDocument = .ok brokers) :
    ((brokers.map (·.id)).Nodup ↔ (entries.map (fieldOf? "id")).Nodup) ∧
      ((Cluster.ledPartitions brokers).Nodup ↔ (ledEntries entries).Nodup) := by
  constructor
  · have hids := map_eq_of_mapM_eq_ok h fun entry _ b hb => (broker_eq hb).1
    have hinjective : Function.Injective fun id : Nat => some (Document.int id) := by
      intro id id' heq
      have heq : (id : Int) = id' := by simpa using heq
      omega
    rw [← hids, ← List.nodup_map_iff hinjective, List.map_map]
    rfl
  · have hled := map_eq_of_mapM_eq_ok h fun entry _ b hb => (broker_eq hb).2
    rw [← List.nodup_map_iff partitionFields_injective, Cluster.ledPartitions, List.map_flatMap,
      ledEntries, List.flatMap_def, hled, List.flatMap_def]

theorem brokerEntries_of_find? {items : List Document}
    (h : find? "brokers" fields = some (.list items)) : brokerEntries fields = items := by
  rw [brokerEntries, h]
  rfl

theorem find?_brokers_of_ok [Limits] {c : Cluster Float}
    (h : Cluster.ofDocument (.object fields) = .ok c) :
    find? "brokers" fields = some (.list (brokerEntries fields)) := by
  simp only [Cluster.ofDocument] at h
  split at h
  next items hitems => rw [brokerEntries_of_find? hitems, hitems]
  next => cases h

/-- A snapshot with a list of brokers describes a cluster exactly if its parts make one. -/
theorem ofDocument_eq_ok_iff [Limits] {items : List Document} {c : Cluster Float}
    (hitems : find? "brokers" fields = some (.list items)) :
    Cluster.ofDocument (.object fields) = .ok c ↔
      ∃ windows ratio brokers, Cluster.windowsField fields = .ok windows ∧
        Denotes (findD "monitored_partitions_ratio" (.float 1.0) fields) ratio ∧
        items.mapM Broker.ofDocument = .ok brokers ∧
        Cluster.make brokers ratio windows = .ok c := by
  simp only [Cluster.ofDocument, hitems]
  constructor
  · intro h
    obtain ⟨-, -, h⟩ := bind_eq_ok_iff.mp h
    obtain ⟨windows, hwindows, h⟩ := bind_eq_ok_iff.mp h
    obtain ⟨ratio, hratio, h⟩ := bind_eq_ok_iff.mp h
    obtain ⟨brokers, hbrokers, h⟩ := bind_eq_ok_iff.mp h
    refine ⟨windows, ratio, brokers, hwindows, floatOf_eq_ok_iff.mp hratio, hbrokers, ?_⟩
    cases hmake : Cluster.make brokers ratio windows with
    | ok c' =>
      rw [hmake] at h
      cases h
      rfl
    | error refusal =>
      rw [hmake] at h
      cases h
  · rintro ⟨windows, ratio, brokers, hwindows, hratio, hbrokers, hmake⟩
    refine bind_eq_ok_iff.mpr ⟨(), requireRatio_of_denotes hratio,
      bind_eq_ok_iff.mpr ⟨windows, hwindows,
      bind_eq_ok_iff.mpr ⟨ratio, floatOf_eq_ok_iff.mpr hratio,
      bind_eq_ok_iff.mpr ⟨brokers, hbrokers, ?_⟩⟩⟩⟩
    rw [hmake]

/-- A snapshot describes a cluster exactly if it has the right shape and its hosts and racks can be
written. -/
theorem exists_cluster_iff [Limits] :
    (∃ c, Cluster.ofDocument (.object fields) = .ok c) ↔
      IsSnapshot fields ∧ ∀ entry ∈ brokerEntries fields, IsWritable entry := by
  constructor
  · rintro ⟨c, h⟩
    have hitems := find?_brokers_of_ok h
    obtain ⟨windows, ratio, brokers, hwindows, hratio, hbrokers, hmake⟩ :=
      (ofDocument_eq_ok_iff hitems).mp h
    obtain ⟨hunit, hnonneg, hids, hled, -⟩ := Cluster.make_eq_ok_iff.mp hmake
    have heach (entry : Document) (hentry : entry ∈ brokerEntries fields) :
        IsBroker entry ∧ IsWritable entry :=
      exists_broker_iff.mp (exists_mapM_eq_ok_iff.mp ⟨brokers, hbrokers⟩ entry hentry)
    exact ⟨{
      brokers := ⟨_, hitems⟩
      ratio := exists_ratio_iff.mp ⟨ratio, hratio, hunit⟩
      windows := exists_windowsField_iff.mp ⟨windows, hwindows, hnonneg⟩
      each := fun entry hentry => (heach entry hentry).1
      ids := (brokers_eq hbrokers).1.mp hids
      leaders := (brokers_eq hbrokers).2.mp hled },
      fun entry hentry => (heach entry hentry).2⟩
  · rintro ⟨h, hwritable⟩
    obtain ⟨items, hitems⟩ := h.brokers
    obtain rfl := brokerEntries_of_find? hitems
    obtain ⟨ratio, hratio, hunit⟩ := exists_ratio_iff.mpr h.ratio
    obtain ⟨windows, hwindows, hnonneg⟩ := exists_windowsField_iff.mpr h.windows
    obtain ⟨brokers, hbrokers⟩ := exists_mapM_eq_ok_iff.mpr fun entry hentry =>
      exists_broker_iff.mpr ⟨h.each entry hentry, hwritable entry hentry⟩
    have hmake := Cluster.make_eq_ok_iff.mpr ⟨hunit, hnonneg, (brokers_eq hbrokers).1.mpr h.ids,
      (brokers_eq hbrokers).2.mpr h.leaders, rfl⟩
    exact ⟨_, (ofDocument_eq_ok_iff hitems).mpr
      ⟨windows, ratio, brokers, hwindows, hratio, hbrokers, hmake⟩⟩

end Cluster

end ClusterBalance.Snapshot
