import Mathlib
import ClusterBalance.Proofs.Cluster.Counts
import ClusterBalance.Proofs.Cluster.Matching

/-! Failures of brokers and of disks. Main statement: whatever brokers die and whatever replicas go
offline, the cluster stays accepted, no replica that was to be healed is forgotten, and what is
known of replicas, topics, loads, capacities, hosts and leaders stays as it was. No law of
arithmetic is used, so this holds of the doubles as they round. -/

namespace ClusterBalance

section Definitions

variable {α : Type}

/-- A replica before and after the disks of its broker may have failed. -/
structure Replica.Degraded (r r' : Replica α) : Prop where
  partition : r.partition = r'.partition
  leader : r.leader = r'.leader
  load : r.load = r'.load
  offline : r.offline = true → r'.offline = true

/-- A broker before and after it may have died and replicas on it may have gone offline. -/
structure Broker.Degraded (b b' : Broker α) : Prop where
  id : b.id = b'.id
  capacity : b.capacity = b'.capacity
  host : b.host = b'.host
  rack : b.rack = b'.rack
  alive : b'.alive = true → b.alive = true
  replicas : List.Forall₂ Replica.Degraded b.replicas b'.replicas

/-- A cluster before and after some failures. -/
structure Cluster.Degraded (c c' : Cluster α) : Prop where
  brokers : List.Forall₂ Broker.Degraded c.brokers c'.brokers
  monitoredRatio : c.monitoredRatio = c'.monitoredRatio
  windows : c.windows = c'.windows

/-- A replica as it is on a disk that works. -/
def Replica.online (r : Replica α) : Replica α := { r with offline := false }

/-- A broker that is alive, with all its disks working. -/
def Broker.restored (b : Broker α) : Broker α :=
  { b with alive := true, replicas := b.replicas.map Replica.online }

/-- A cluster without failures. -/
def Cluster.restored (c : Cluster α) : Cluster α :=
  { c with brokers := c.brokers.map Broker.restored }

/-- What failures leave as it was in a cluster. The replicas to be healed can only become more. -/
structure Cluster.Frame [Scalar α] (c c' : Cluster α) : Prop where
  healing : (c.healing.map (Prod.map id Replica.online)).Sublist
    (c'.healing.map (Prod.map id Replica.online))
  partitionsToHeal : c.distribution.partitionsToHeal ≤ c'.distribution.partitionsToHeal
  numReplicas : c.numReplicas = c'.numReplicas
  topics : c.topics = c'.topics
  numReplicasOf : ∀ topic, c.numReplicasOf topic = c'.numReplicasOf topic
  load : c.load = c'.load
  capacity : c.capacity = c'.capacity
  hosts : ∀ r, c.hosts.map (fun h => (h.name, h.load r, h.capacity r)) =
    c'.hosts.map fun h => (h.name, h.load r, h.capacity r)
  leader : ∀ p, (c.leader? p).map (fun x => (x.1, x.2.load)) =
    (c'.leader? p).map fun x => (x.1, x.2.load)
  potentialLoad : c.brokers.map (fun b => (b.id, c.potentialLoad b)) =
    c'.brokers.map fun b => (b.id, c'.potentialLoad b)

end Definitions

variable {α : Type}

theorem Replica.Degraded.online {r r' : Replica α} (h : r.Degraded r') :
    r.online = r'.online := by
  cases r
  cases r'
  cases h.partition
  cases h.leader
  cases h.load
  rfl

theorem matches_of_degraded {b b' : Broker α} (h : b.Degraded b') : b.Matches id b' :=
  ⟨h.id, h.replicas.imp fun _ _ hr => ⟨hr.partition, hr.leader, hr.load⟩⟩

namespace Cluster.Degraded

variable {c c' : Cluster α}

theorem matched (h : c.Degraded c') : c.Matches id c' :=
  ⟨h.brokers.imp fun _ _ hb => matches_of_degraded hb, h.monitoredRatio, h.windows⟩

theorem map_count (h : c.Degraded c') {count : Broker α → Nat}
    (hcount : ∀ b b', b.Matches id b' → count b = count b') :
    c.brokers.map count = c'.brokers.map count :=
  map_eq_of_forall₂ h.matched.brokers hcount

/-- A replica to be healed is still on the same broker, which is not alive again, and not back
online. -/
theorem healing (h : c.Degraded c') : (c.healing.map (Prod.map id Replica.online)).Sublist
    (c'.healing.map (Prod.map id Replica.online)) := by
  rw [Cluster.healing, Cluster.healing, List.map_flatMap, List.map_flatMap]
  refine flatMap_sublist_of_forall₂ h.brokers fun b b' hb => ?_
  rw [List.map_map, List.map_map]
  refine map_filter_sublist_of_forall₂ hb.replicas (fun r r' hr => ?_) fun r r' hr hheals => ?_
  · exact Prod.ext hb.id hr.online
  · have halive := hb.alive
    have hoffline := hr.offline
    grind

theorem partitionsToHeal (h : c.Degraded c') :
    c.distribution.partitionsToHeal ≤ c'.distribution.partitionsToHeal := by
  have hpartitions (c : Cluster α) : c.healing.map (·.2.partition) =
      (c.healing.map (Prod.map id Replica.online)).map (·.2.partition) := by
    rw [List.map_map]
    rfl
  have hsubset : c.healing.map (·.2.partition) ⊆ c'.healing.map (·.2.partition) := by
    rw [hpartitions, hpartitions]
    exact (h.healing.map _).subset
  have hle : ((c.healing.map (·.2.partition)).eraseDups.length : ℕ∞) ≤
      (c'.healing.map (·.2.partition)).eraseDups.length := by
    rw [length_eraseDups_eq_encard, length_eraseDups_eq_encard]
    exact Set.encard_le_encard fun p hp => hsubset hp
  exact_mod_cast hle

theorem leader (h : c.Degraded c') (p : TopicPartition) :
    (c.leader? p).map (fun x => (x.1, x.2.load)) =
      (c'.leader? p).map fun x => (x.1, x.2.load) := by
  have hleader := h.matched.leader? p
  generalize c.leader? p = x at hleader ⊢
  generalize c'.leader? p = x' at hleader ⊢
  cases hleader with
  | none => rfl
  | some hx => exact congrArg some (Prod.ext hx.1 hx.2.load)

variable [Scalar α]

theorem accepted (h : c.Degraded c') (hc : c.Accepted) : c'.Accepted := by
  refine h.matched.accepted hc (forall_mem_of_forall₂ h.brokers (fun b b' hb hadmitted => ?_)
    hc.admitted)
  refine ⟨hb.capacity ▸ hadmitted.capacity, ?_, hb.host ▸ hadmitted.host⟩
  exact forall_mem_of_forall₂ hb.replicas (fun r r' hr hload => hr.load ▸ hload) hadmitted.load

theorem hosts (h : c.Degraded c') (r : Resource) :
    c.hosts.map (fun h => (h.name, h.load r, h.capacity r)) =
      c'.hosts.map fun h => (h.name, h.load r, h.capacity r) := by
  have hnames : c.brokers.map (·.host) = c'.brokers.map (·.host) :=
    map_eq_of_forall₂ h.brokers fun _ _ hb => hb.host
  rw [hosts_eq, hosts_eq, hnames, List.map_map, List.map_map]
  refine List.map_congr_left fun name _ => ?_
  have hbrokers : List.Forall₂ Broker.Degraded (c.hostNamed name).brokers
      (c'.hostNamed name).brokers :=
    filter_forall₂ h.brokers fun a a' ha => by rw [ha.host]
  have hload : (c.hostNamed name).load r = (c'.hostNamed name).load r :=
    congrArg Scalar.total (map_eq_of_forall₂ hbrokers fun a a' ha =>
      congrArg (PerResource.get · r) ((matches_of_degraded ha).load LoadVector.id_sum))
  have hcapacity : (c.hostNamed name).capacity r = (c'.hostNamed name).capacity r :=
    congrArg Scalar.total (map_eq_of_forall₂ hbrokers fun a a' ha =>
      congrArg (PerResource.get · r) ha.capacity)
  simp only [Function.comp_apply, hload, hcapacity]
  rfl

theorem frame (h : c.Degraded c') : c.Frame c' where
  healing := h.healing
  partitionsToHeal := h.partitionsToHeal
  numReplicas := h.matched.numReplicas
  topics := h.matched.topics
  numReplicasOf := h.matched.numReplicasOf
  load := congrArg LoadVector.sum
    (map_eq_of_forall₂ h.brokers fun _ _ hb => (matches_of_degraded hb).load LoadVector.id_sum)
  capacity := congrArg LoadVector.sum (map_eq_of_forall₂ h.brokers fun _ _ hb => hb.capacity)
  hosts := h.hosts
  leader := h.leader
  potentialLoad := map_eq_of_forall₂ h.brokers fun _ _ hb =>
    Prod.ext hb.id (h.matched.potentialLoad LoadVector.id_sum (matches_of_degraded hb))

end Cluster.Degraded

namespace Cluster

/-- Every cluster comes from one without failures. -/
theorem restored_degraded (c : Cluster α) : c.restored.Degraded c := by
  refine ⟨?_, rfl, rfl⟩
  rw [restored, List.forall₂_map_left_iff, List.forall₂_same]
  refine fun b _ => ⟨rfl, rfl, rfl, rfl, fun _ => rfl, ?_⟩
  rw [Broker.restored, List.forall₂_map_left_iff, List.forall₂_same]
  exact fun _ _ => ⟨rfl, rfl, rfl, nofun⟩

theorem restored_accepted [Scalar α] {c : Cluster α} (hc : c.Accepted) : c.restored.Accepted := by
  have hmatches : c.Matches id c.restored :=
    .of_map fun _ => .of_map rfl rfl fun _ => ⟨rfl, rfl, rfl⟩
  refine hmatches.accepted hc (List.forall_mem_map.mpr fun b hb => ?_)
  have hadmitted := hc.admitted b hb
  exact ⟨hadmitted.capacity, List.forall_mem_map.mpr hadmitted.load, hadmitted.host⟩

end Cluster

end ClusterBalance
