import ClusterBalance.Proofs.Alike
import ClusterBalance.Proofs.Cluster.Answers

/-! Clusters that match broker by broker and replica by replica, where the loads of the second may
be made from those of the first. Main statements: they count the same replicas of the same topics,
their partitions are led from the same brokers, and what a broker would carry as the leader of all
its partitions is made in the same way. -/

namespace ClusterBalance

section Definitions

variable {α : Type} (f : LoadVector α → LoadVector α)

/-- Two replicas of one partition that both lead it or both do not. -/
structure Replica.Matches (r r' : Replica α) : Prop where
  partition : r.partition = r'.partition
  leader : r.leader = r'.leader
  load : f r.load = r'.load

/-- Two brokers of the same id whose replicas match one by one. -/
structure Broker.Matches (b b' : Broker α) : Prop where
  id : b.id = b'.id
  replicas : List.Forall₂ (Replica.Matches f) b.replicas b'.replicas

/-- Two clusters whose brokers match one by one. -/
structure Cluster.Matches (c c' : Cluster α) : Prop where
  brokers : List.Forall₂ (Broker.Matches f) c.brokers c'.brokers
  monitoredRatio : c.monitoredRatio = c'.monitoredRatio
  windows : c.windows = c'.windows

end Definitions

variable {α : Type} {f : LoadVector α → LoadVector α}

/-- Loads that stay as they are have the same sum. -/
theorem LoadVector.id_sum [Scalar α] (vs : List (LoadVector α)) :
    id (LoadVector.sum vs) = LoadVector.sum (vs.map id) := by
  rw [List.map_id]
  rfl

namespace Broker.Matches

variable {b b' : Broker α}

theorem of_map (hid : b.id = b'.id) {g : Replica α → Replica α}
    (hreplicas : b'.replicas = b.replicas.map g) (hg : ∀ r, Replica.Matches f r (g r)) :
    b.Matches f b' := by
  refine ⟨hid, ?_⟩
  rw [hreplicas, List.forall₂_map_right_iff, List.forall₂_same]
  exact fun r _ => hg r

theorem numReplicas (h : b.Matches f b') : b.numReplicas = b'.numReplicas :=
  h.replicas.length_eq

theorem numLeaders (h : b.Matches f b') : b.numLeaders = b'.numLeaders := by
  rw [Broker.numLeaders, Broker.numLeaders, List.countP_eq_length_filter,
    List.countP_eq_length_filter]
  exact (filter_forall₂ h.replicas fun _ _ hr => hr.leader).length_eq

theorem numReplicasOf (h : b.Matches f b') (topic : LooseText) :
    b.numReplicasOf topic = b'.numReplicasOf topic := by
  rw [Broker.numReplicasOf, Broker.numReplicasOf, List.countP_eq_length_filter,
    List.countP_eq_length_filter]
  refine (filter_forall₂ h.replicas fun _ _ hr => ?_).length_eq
  rw [Replica.topic, Replica.topic, hr.partition]

theorem ledPartitions (h : b.Matches f b') :
    b.leaders.map (·.partition) = b'.leaders.map (·.partition) :=
  map_eq_of_forall₂ (filter_forall₂ h.replicas fun _ _ hr => hr.leader) fun _ _ hr => hr.partition

variable [Scalar α]

/-- The load of a matching broker is made in the same way as those of its replicas. -/
theorem load (h : b.Matches f b') (hf : ∀ vs, f (LoadVector.sum vs) = LoadVector.sum (vs.map f)) :
    f b.load = b'.load := by
  rw [Broker.load, Broker.load, hf, List.map_map]
  exact congrArg LoadVector.sum (map_eq_of_forall₂ h.replicas fun _ _ hr => hr.load)

end Broker.Matches

namespace Cluster.Matches

variable {c c' : Cluster α}

/-- A cluster matches the one in which each broker is replaced by one that matches it. -/
theorem of_map {g : Broker α → Broker α} (hg : ∀ b, Broker.Matches f b (g b)) :
    c.Matches f { c with brokers := c.brokers.map g } := by
  refine ⟨?_, rfl, rfl⟩
  rw [List.forall₂_map_right_iff, List.forall₂_same]
  exact fun b _ => hg b

theorem placements (h : c.Matches f c') :
    List.Forall₂ (fun x x' => x.1 = x'.1 ∧ x.2.Matches f x'.2) c.placements c'.placements := by
  refine List.rel_flatMap h.brokers fun b b' hb => ?_
  rw [List.forall₂_map_left_iff, List.forall₂_map_right_iff]
  exact hb.replicas.imp fun _ _ hr => ⟨hb.id, hr⟩

theorem replicas (h : c.Matches f c') :
    List.Forall₂ (Replica.Matches f) c.replicas c'.replicas :=
  List.rel_flatMap h.brokers fun _ _ hb => hb.replicas

theorem leaders (h : c.Matches f c') :
    List.Forall₂ (fun x x' => x.1 = x'.1 ∧ x.2.Matches f x'.2) c.leaders c'.leaders :=
  filter_forall₂ h.placements fun _ _ hx => hx.2.leader

theorem topics (h : c.Matches f c') : c.topics = c'.topics := by
  have hnames : c.replicas.map (·.topic) = c'.replicas.map (·.topic) :=
    map_eq_of_forall₂ h.replicas fun _ _ hr => by rw [Replica.topic, Replica.topic, hr.partition]
  rw [Cluster.topics, Cluster.topics, hnames]

theorem numReplicas (h : c.Matches f c') : c.numReplicas = c'.numReplicas := by
  rw [Cluster.numReplicas, Cluster.numReplicas,
    map_eq_of_forall₂ h.brokers fun _ _ hb => hb.numReplicas]

theorem numReplicasOf (h : c.Matches f c') (topic : LooseText) :
    c.numReplicasOf topic = c'.numReplicasOf topic := by
  rw [Cluster.numReplicasOf, Cluster.numReplicasOf,
    map_eq_of_forall₂ h.brokers fun _ _ hb => hb.numReplicasOf topic]

/-- The leader of a partition is on the same broker in both clusters, or in neither. -/
theorem leader? (h : c.Matches f c') (p : TopicPartition) :
    Option.Rel (fun x x' => x.1 = x'.1 ∧ x.2.Matches f x'.2) (c.leader? p) (c'.leader? p) :=
  find?_rel_of_forall₂ h.leaders fun _ _ hx => congrArg (fun q => decide (q = p)) hx.2.partition

theorem leadershipLoad (h : c.Matches f c') {r r' : Replica α} (hr : r.Matches f r') :
    f (Cluster.leadershipLoad c.leaders r) = Cluster.leadershipLoad c'.leaders r' := by
  have hleader := h.leader? r.partition
  simp only [Cluster.leader?] at hleader
  unfold Cluster.leadershipLoad
  rw [← hr.partition]
  generalize c.leaders.find? _ = x at hleader
  generalize c'.leaders.find? _ = x' at hleader
  cases hleader with
  | none => exact hr.load
  | some hx => exact hx.2.load

variable [Scalar α]

/-- Matching clusters are made alike if what they are made of is admitted. -/
theorem accepted (h : c.Matches f c') (hc : c.Accepted) (hbrokers : ∀ b ∈ c'.brokers, b.Admitted) :
    c'.Accepted := by
  obtain ⟨brokers, ratio, windows, -, hmake⟩ := hc
  have hids : c'.brokers.Pairwise fun a b => a.id < b.id := by
    have hsame : c.brokers.map (·.id) = c'.brokers.map (·.id) :=
      map_eq_of_forall₂ h.brokers fun _ _ hb => hb.id
    rw [← List.pairwise_map (f := Broker.id) (R := (· < ·)), ← hsame, List.pairwise_map]
    exact pairwise_of_make hmake
  have hled : (ledPartitions c'.brokers).Nodup := by
    have hsame : ledPartitions c.brokers = ledPartitions c'.brokers := by
      rw [Cluster.ledPartitions, Cluster.ledPartitions, List.flatMap_def, List.flatMap_def,
        map_eq_of_forall₂ h.brokers fun _ _ hb => hb.ledPartitions]
    have hleaders := nodup_leaders_of_make hmake
    rwa [← hsame, ledPartitions_eq c.brokers]
  obtain ⟨hratio, -, -, -, rfl⟩ := make_eq_ok_iff.mp hmake
  exact ⟨c'.brokers, c'.monitoredRatio, c'.windows, hbrokers,
    make_of_ordered (h.monitoredRatio ▸ hratio) hids hled⟩

/-- What a matching broker would carry as the leader of all its partitions is made in the same
way. -/
theorem potentialLoad (h : c.Matches f c')
    (hf : ∀ vs, f (LoadVector.sum vs) = LoadVector.sum (vs.map f)) {b b' : Broker α}
    (hb : b.Matches f b') : f (c.potentialLoad b) = c'.potentialLoad b' := by
  rw [Cluster.potentialLoad, Cluster.potentialLoad, hf, List.map_map]
  exact congrArg LoadVector.sum
    (map_eq_of_forall₂ hb.replicas fun _ _ hr => h.leadershipLoad hr)

end Cluster.Matches

end ClusterBalance
