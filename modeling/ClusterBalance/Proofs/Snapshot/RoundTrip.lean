import ClusterBalance.Proofs.Cluster.Amounts
import ClusterBalance.Proofs.Cluster.Answers
import ClusterBalance.Proofs.Decimal.Bits
import ClusterBalance.Proofs.Snapshot.Acceptance

/-! Snapshots that are written and read back. Main statement: the document of a cluster describes
that cluster with the amounts that its own are read as, unless the id of a broker that holds
replicas is too long to be written out. -/

namespace ClusterBalance

open Document Snapshot

section Definitions

variable {α : Type} [Amount α] (f : α → Float)

/-- Amounts whose documents are read as the doubles that a function gives, none of them below
zero. -/
structure LoadVector.ReadAs (v : LoadVector α) : Prop where
  amounts : ∀ r, Denotes (Amount.document (v.get r)) (f (v.get r))
  notNegative : LoadVector.negative? (PerResource.map f v) = none

/-- A broker whose amounts are read as the doubles that a function gives. -/
structure Broker.ReadAs (b : Broker α) : Prop where
  capacity : LoadVector.ReadAs f b.capacity
  load : ∀ r ∈ b.replicas, LoadVector.ReadAs f r.load
  host : b.host ≠ ""

/-- A broker that holds replicas has an id that can be written out. -/
def Broker.IdReadable (b : Broker α) : Prop := b.replicas ≠ [] → b.id < digitLimit

/-- The ids of the brokers that hold replicas can be written out. -/
def Cluster.IdsReadable (c : Cluster α) : Prop := ∀ b ∈ c.brokers, b.IdReadable

end Definitions

theorem defaultHost_ne_empty (id : String) : Broker.defaultHost id ≠ "" := by
  intro h
  have hlength := congrArg String.length (LooseText.sound.inj h)
  rw [String.length_append] at hlength
  have : "host-".length = 5 := by decide
  have : "".length = 0 := by decide
  omega

theorem hostFor_ne_empty (id : Nat) (name : LooseText) : hostFor id name ≠ "" := by
  unfold hostFor
  split
  · exact defaultHost_ne_empty _
  next h => exact h

/-- The brokers of a cluster make it again. -/
theorem Cluster.make_brokers {α : Type} {c : Cluster α} {brokers : List (Broker α)} {ratio : Float}
    {windows : Int} (h : make brokers ratio windows = .ok c) :
    make c.brokers c.monitoredRatio c.windows = .ok c := by
  have hids := pairwise_of_make h
  obtain ⟨hratio, -, -, hled, rfl⟩ := make_eq_ok_iff.mp h
  exact make_of_ordered hratio hids ((ledPartitions_inOrder_perm brokers).nodup_iff.mpr hled)

/-- A cluster is made again with other amounts. -/
theorem Cluster.make_map {α β : Type} {c : Cluster α} (f : α → β)
    (h : make c.brokers c.monitoredRatio c.windows = .ok c) :
    make (c.map f).brokers (c.map f).monitoredRatio (c.map f).windows = .ok (c.map f) := by
  have hids := pairwise_of_make h
  obtain ⟨hratio, -, -, hled, -⟩ := make_eq_ok_iff.mp h
  refine make_of_ordered hratio ?_ ?_
  · rw [map_brokers, List.pairwise_map]
    exact hids
  · rwa [map_brokers, map_ledPartitions]

section Parts

theorem names_wireName (r : Resource) : Names (.sound r.wireName) r := by
  have hname : Resource.ofName? r.wireName = some r := by cases r <;> decide +kernel
  exact hname

variable {α : Type} [Amount α] {f : α → Float}

/-- Amounts that are set one after the other are all there in the end. -/
theorem foldlM_putField_map {v : LoadVector α} (w : LoadVector Float) (rs : List Resource)
    (h : ∀ r, Denotes (Amount.document (v.get r)) (f (v.get r))) :
    (rs.map fun r => (LooseText.sound r.wireName, Amount.document (v.get r))).foldlM
        LoadVector.putField w =
      .ok (rs.foldl (fun w r => w.set r (f (v.get r))) w) := by
  induction rs generalizing w with
  | nil => rfl
  | cons r rs ih =>
    have hput : LoadVector.putField w (.sound r.wireName, Amount.document (v.get r)) =
        .ok (w.set r (f (v.get r))) :=
      putField_eq_ok_iff.mpr ⟨r, f (v.get r), names_wireName r, h r, rfl⟩
    rw [List.map_cons, List.foldlM_cons, hput, ok_bind, ih]
    rfl

theorem LoadVector.toDocument_eq (v : LoadVector α) :
    v.toDocument = .object
      (Resource.all.map fun r => (LooseText.sound r.wireName, Amount.document (v.get r))) := by
  simp [LoadVector.toDocument, ofFields, PerResource.toFields]

theorem vector_roundTrip {v : LoadVector α} (h : LoadVector.ReadAs f v) :
    LoadVector.ofDocument v.toDocument = .ok (PerResource.map f v) := by
  -- every resource is set, so nothing is left of the empty vector
  have hset : Resource.all.foldl (fun w r => w.set r (f (v.get r))) LoadVector.empty =
      PerResource.map f v := by
    apply PerResource.ext_get
    intro r
    cases r <;> rfl
  rw [LoadVector.toDocument_eq, LoadVector.ofDocument, foldlM_putField_map _ _ h.amounts, hset,
    ok_bind, LoadVector.make, h.notNegative]

/-- Only the id of its broker and its load can keep the document of a replica from being read. -/
theorem replica_ofDocument_toDocument (id : Nat) (r : Replica α) :
    Replica.ofDocument id r.toDocument = lift (wholeText? id) >>= fun _ =>
      LoadVector.ofDocument r.load.toDocument >>= fun load =>
        .ok { partition := r.partition, leader := r.leader, load, offline := r.offline } := by
  have hpartition : partitionOf r.partition.topic r.partition.partition = .ok r.partition :=
    partitionOf_of_nonneg r.partition.topic_ne_empty (by omega)
  calc Replica.ofDocument id r.toDocument
      = lift (wholeText? id) >>= fun _ =>
          partitionOf r.partition.topic r.partition.partition >>= fun partition =>
            LoadVector.ofDocument r.load.toDocument >>= fun load =>
              .ok { partition, leader := r.leader, load, offline := r.offline } := rfl
    _ = _ := by rw [hpartition]; rfl

theorem replica_roundTrip {r : Replica α} (h : LoadVector.ReadAs f r.load) {id : Nat}
    (hid : id < digitLimit) : Replica.ofDocument id r.toDocument = .ok (r.map f) := by
  rw [replica_ofDocument_toDocument, wholeText?_of_lt (by rwa [Int.natAbs_natCast]),
    vector_roundTrip h]
  rfl

/-- Only its capacity and its replicas can keep the document of a broker from being read. -/
theorem broker_ofDocument_toDocument [Limits] {b : Broker α} (h : b.host ≠ "") :
    Broker.ofDocument b.toDocument =
      LoadVector.ofDocument b.capacity.toDocument >>= fun capacity =>
        (b.replicas.map Replica.toDocument).mapM (Replica.ofDocument b.id) >>= fun replicas =>
          .ok { b with capacity, replicas } := by
  -- the host that was written is not empty, so no default takes its place
  have hparts (capacity : LoadVector Float) (replicas : List (Replica Float)) :
      Broker.ofParts b.id capacity (replicas.map ((b.id : Int), ·)) b.host b.rack b.alive =
        .ok { b with capacity, replicas } := by
    apply ofParts_eq_ok_iff.mpr
    refine ⟨by omega, fun hhost => absurd hhost h, ?_⟩
    rw [hostFor, if_neg h, Int.toNat_natCast]
  calc Broker.ofDocument b.toDocument
      = LoadVector.ofDocument b.capacity.toDocument >>= fun capacity =>
          (b.replicas.map Replica.toDocument).mapM (Replica.ofDocument b.id) >>= fun replicas =>
            Broker.ofParts b.id capacity (replicas.map ((b.id : Int), ·)) b.host b.rack b.alive :=
        rfl
    _ = _ := by simp only [hparts]

theorem broker_roundTrip [Limits] {b : Broker α} (h : b.ReadAs f) (hid : b.IdReadable) :
    Broker.ofDocument b.toDocument = .ok (b.map f) := by
  have hreplicas : (b.replicas.map Replica.toDocument).mapM (Replica.ofDocument b.id) =
      .ok (b.replicas.map (Replica.map f)) :=
    mapM_map_eq_ok fun r hr => replica_roundTrip (h.load r hr) (hid (List.ne_nil_of_mem hr))
  rw [broker_ofDocument_toDocument h.host, vector_roundTrip h.capacity, hreplicas]
  rfl

/-- The id of a broker is written out for each of its replicas. -/
theorem broker_unreadable [Limits] {b : Broker α} (h : b.ReadAs f) (hid : ¬b.IdReadable) :
    Broker.ofDocument b.toDocument = .error (.noLiteral .tooManyDigits) := by
  rw [Broker.IdReadable, Classical.not_imp, Nat.not_lt] at hid
  obtain ⟨hne, hid⟩ := hid
  obtain ⟨r, rs, hrs⟩ := List.exists_cons_of_ne_nil hne
  have hfirst : Replica.ofDocument b.id r.toDocument = .error (.noLiteral .tooManyDigits) := by
    rw [replica_ofDocument_toDocument, wholeText?_of_le (by rwa [Int.natAbs_natCast])]
    rfl
  rw [broker_ofDocument_toDocument h.host, vector_roundTrip h.capacity, ok_bind, hrs,
    List.map_cons, mapM_cons_eq, hfirst]
  rfl

end Parts

namespace Cluster

variable {α : Type} [Amount α] {f : α → Float} {c : Cluster α}

/-- The document of a cluster describes that cluster with the amounts that its own are read as. -/
theorem ofDocument_of_readAs [Limits] (hbrokers : ∀ b ∈ c.brokers, b.ReadAs f)
    (hids : c.IdsReadable) (hmake : make c.brokers c.monitoredRatio c.windows = .ok c) :
    ofDocument c.toDocument = .ok (c.map f) := by
  have hread : (c.brokers.map Broker.toDocument).mapM Broker.ofDocument =
      .ok (c.brokers.map (Broker.map f)) :=
    mapM_map_eq_ok fun b hb => broker_roundTrip (hbrokers b hb) (hids b hb)
  rw [toDocument]
  apply (ofDocument_eq_ok_iff rfl).mpr
  exact ⟨c.windows, c.monitoredRatio, _, rfl, .float _, hread, make_map f hmake⟩

/-- A broker that holds replicas under an id that is too long makes the document of its cluster one
that describes none. -/
theorem ofDocument_of_unreadable [Limits] (hbrokers : ∀ b ∈ c.brokers, b.ReadAs f)
    (hids : ¬c.IdsReadable) :
    ofDocument c.toDocument = .error (.noLiteral .tooManyDigits) := by
  have hread : (c.brokers.map Broker.toDocument).mapM Broker.ofDocument =
      .error (.noLiteral .tooManyDigits) := by
    cases h : (c.brokers.map Broker.toDocument).mapM Broker.ofDocument with
    | ok read =>
      refine absurd (fun b hb => ?_) hids
      by_contra hid
      obtain ⟨b', hb'⟩ := exists_mapM_eq_ok_iff.mp ⟨read, h⟩ _ (List.mem_map_of_mem hb)
      rw [broker_unreadable (hbrokers b hb) hid] at hb'
      cases hb'
    | error e =>
      obtain ⟨_, hmem, he⟩ := exists_of_mapM_eq_error h
      obtain ⟨b, hb, rfl⟩ := List.mem_map.mp hmem
      by_cases hid : b.IdReadable
      · rw [broker_roundTrip (hbrokers b hb) hid] at he
        cases he
      · rw [broker_unreadable (hbrokers b hb) hid] at he
        rw [Except.error.inj he]
  have hratio : requireRatio (.float c.monitoredRatio) = .ok () :=
    requireRatio_of_denotes (.float _)
  unfold toDocument ofDocument
  exact bind_eq_error_iff.mpr (.inr ⟨(), hratio, bind_eq_error_iff.mpr (.inr ⟨c.windows, rfl,
    bind_eq_error_iff.mpr (.inr ⟨c.monitoredRatio, rfl,
    bind_eq_error_iff.mpr (.inl hread)⟩)⟩)⟩)

end Cluster

section Doubles

/-- No amount is not-a-number. -/
def LoadVector.IsNumeric (v : LoadVector Float) : Prop := ∀ r, (v.get r).isNaN = false

/-- No capacity and no load has an amount that is not-a-number. -/
def Cluster.IsNumeric (c : Cluster Float) : Prop :=
  ∀ b ∈ c.brokers, b.capacity.IsNumeric ∧ ∀ r ∈ b.replicas, r.load.IsNumeric

theorem LoadVector.readAs_id {v : LoadVector Float} (h : v.negative? = none) :
    LoadVector.ReadAs id v :=
  ⟨fun r => .float (v.get r), by rwa [PerResource.map_id]⟩

theorem broker_readAs {b : Broker Float} (h : b.Admitted) : b.ReadAs id :=
  ⟨LoadVector.readAs_id h.capacity, fun r hr => LoadVector.readAs_id (h.load r hr), h.host⟩

/-- The document of a cluster of doubles describes that cluster. -/
theorem Cluster.Accepted.roundTrip [Limits] {c : Cluster Float} (h : c.Accepted)
    (hids : c.IdsReadable) : Cluster.ofDocument c.toDocument = .ok c := by
  have hbrokers (b : Broker Float) (hb : b ∈ c.brokers) : b.ReadAs id :=
    broker_readAs (h.admitted b hb)
  obtain ⟨brokers, ratio, windows, -, hmake⟩ := h
  rw [ofDocument_of_readAs hbrokers hids (make_brokers hmake), map_id]

theorem vector_beq_self {v : LoadVector Float} (h : v.IsNumeric) : (v == v) = true :=
  PerResource.beq_iff.mpr fun r => Decimal.beq_self_of_isNaN (h r)

/-- A cluster without amounts that are not-a-number equals itself. -/
theorem Cluster.beq_self {c : Cluster Float} (h : c.IsNumeric) (hratio : 0.0 ≤ c.monitoredRatio) :
    (c == c) = true := by
  have hself := (map_beq_iff (g := id)
    (Decimal.beq_self_of_isNaN (Decimal.isNaN_of_le hratio))).mpr fun b hb =>
      ⟨fun s => Decimal.beq_self_of_isNaN ((h b hb).1 s),
        fun r hr s => Decimal.beq_self_of_isNaN ((h b hb).2 r hr s)⟩
  rwa [map_id] at hself

end Doubles

end ClusterBalance
