import Mathlib
import ClusterBalance.Proofs.Alike
import ClusterBalance.Proofs.Cluster.Counts
import ClusterBalance.Proofs.Cluster.Order
import ClusterBalance.Proofs.Exact.Cluster
import ClusterBalance.Proofs.Report.Readings

/-! The order of brokers and of their replicas. Main statement: the order in which brokers are given
shows nowhere, over any scalars and so on doubles as they round; in exact arithmetic the order of
the replicas on a broker does not show in the statistics either. -/

namespace ClusterBalance

/-- Two brokers that differ at most in the order of their replicas. -/
structure Broker.Rearranged {α : Type} (b b' : Broker α) : Prop where
  id : b.id = b'.id
  capacity : b.capacity = b'.capacity
  host : b.host = b'.host
  alive : b.alive = b'.alive
  rack : b.rack = b'.rack
  replicas : b.replicas.Perm b'.replicas

namespace Broker.Rearranged

variable {α : Type} {b b' : Broker α}

theorem numReplicas (h : b.Rearranged b') : b.numReplicas = b'.numReplicas :=
  h.replicas.length_eq

theorem numLeaders (h : b.Rearranged b') : b.numLeaders = b'.numLeaders :=
  h.replicas.countP_eq _

theorem numReplicasOf (h : b.Rearranged b') (topic : LooseText) :
    b.numReplicasOf topic = b'.numReplicasOf topic :=
  h.replicas.countP_eq _

end Broker.Rearranged

namespace Cluster

section Placement

variable {α : Type}

/-- Two clusters whose brokers differ at most in the order of their replicas. -/
structure Rearranged (c c' : Cluster α) : Prop where
  brokers : List.Forall₂ Broker.Rearranged c.brokers c'.brokers
  monitoredRatio : c.monitoredRatio = c'.monitoredRatio
  windows : c.windows = c'.windows

namespace Rearranged

variable {c c' : Cluster α}

theorem placements (h : c.Rearranged c') : c.placements.Perm c'.placements := by
  apply flatMap_perm_of_forall₂ h.brokers
  intro b b' hb
  rw [hb.id]
  exact hb.replicas.map _

theorem replicas (h : c.Rearranged c') : c.replicas.Perm c'.replicas :=
  flatMap_perm_of_forall₂ h.brokers fun _ _ hb => hb.replicas

theorem healing (h : c.Rearranged c') : c.healing.Perm c'.healing := by
  apply flatMap_perm_of_forall₂ h.brokers
  intro b b' hb
  rw [hb.id, hb.alive]
  exact (hb.replicas.filter _).map _

theorem leaders (h : c.Rearranged c') : c.leaders.Perm c'.leaders :=
  h.placements.filter _

theorem topics (h : c.Rearranged c') : c.topics = c'.topics := by
  have hmem (topic : LooseText) : topic ∈ c.topics ↔ topic ∈ c'.topics := by
    simp only [mem_topics_iff, h.replicas.mem_iff]
  have hperm : c.topics.Perm c'.topics :=
    (List.perm_ext_iff_of_nodup (c.topics_ascending.imp LooseText.ne_of_lt)
      (c'.topics_ascending.imp LooseText.ne_of_lt)).mpr hmem
  exact hperm.eq_of_pairwise (fun _ _ _ _ hst hts => absurd hts (LooseText.not_lt_of_lt hst))
    c.topics_ascending c'.topics_ascending

theorem distribution (h : c.Rearranged c') : c.distribution = c'.distribution := by
  have hnumReplicas : c.numReplicas = c'.numReplicas := by
    rw [Cluster.numReplicas, Cluster.numReplicas,
      map_eq_of_forall₂ h.brokers fun _ _ hb => hb.numReplicas]
  have htoHeal : (c.healing.map (·.2.partition)).eraseDups.length =
      (c'.healing.map (·.2.partition)).eraseDups.length := by
    have hmem (p : TopicPartition) : p ∈ c.healing.map (·.2.partition) ↔
        p ∈ c'.healing.map (·.2.partition) := (h.healing.map (·.2.partition)).mem_iff
    have hsame := length_eraseDups_eq_encard (c.healing.map (·.2.partition))
    simp only [hmem, ← length_eraseDups_eq_encard] at hsame
    exact_mod_cast hsame
  rw [Cluster.distribution, Cluster.distribution, hnumReplicas, htoHeal]

/-- A partition has the same leader, as no two replicas lead it. -/
theorem leadershipLoad (h : c.Rearranged c') (hled : (c.leaders.map (·.2.partition)).Nodup)
    (r : Replica α) : Cluster.leadershipLoad c.leaders r = Cluster.leadershipLoad c'.leaders r := by
  have hled' : (c'.leaders.map (·.2.partition)).Nodup := (h.leaders.map _).nodup_iff.mp hled
  have hfind : c.leaders.find? (fun x => x.2.partition = r.partition) =
      c'.leaders.find? fun x => x.2.partition = r.partition := by
    apply Option.ext
    intro x
    rw [find?_eq_some_iff_of_nodup (fun x : Nat × Replica α => x.2.partition) hled,
      find?_eq_some_iff_of_nodup (fun x : Nat × Replica α => x.2.partition) hled',
      h.leaders.mem_iff]
  unfold Cluster.leadershipLoad
  rw [hfind]

end Rearranged

end Placement

namespace Rearranged

variable {c c' : Cluster ℝ}

theorem sum_eq_of_perm {vs ws : List (LoadVector ℝ)} (h : vs.Perm ws) :
    LoadVector.sum vs = LoadVector.sum ws := by
  apply PerResource.ext_get
  intro r
  rw [Exact.get_sum, Exact.get_sum, (h.map _).sum_eq]

theorem load_eq {b b' : Broker ℝ} (h : b.Rearranged b') : b.load = b'.load :=
  sum_eq_of_perm (h.replicas.map _)

theorem measured (h : c.Rearranged c') {b b' : Broker ℝ} (hb : b.Rearranged b') (r : Resource) :
    c.measured r b = c'.measured r b' := by
  have hhost : List.Forall₂ Broker.Rearranged (c.hostOf b).brokers (c'.hostOf b').brokers :=
    filter_forall₂ h.brokers fun a a' ha => by rw [ha.host, hb.host]
  have hload : (c.hostOf b).load r = (c'.hostOf b').load r := by
    rw [Host.load, Host.load, map_eq_of_forall₂ hhost fun a a' ha => by rw [load_eq ha]]
  have hcapacity : (c.hostOf b).capacity r = (c'.hostOf b').capacity r := by
    rw [Host.capacity, Host.capacity,
      map_eq_of_forall₂ hhost fun a a' ha => by rw [ha.capacity]]
  rw [Cluster.measured, Cluster.measured, hload, hcapacity, load_eq hb, hb.capacity]

theorem potentialOut (h : c.Rearranged c') (hled : (c.leaders.map (·.2.partition)).Nodup)
    {b b' : Broker ℝ} (hb : b.Rearranged b') : c.potentialOut b = c'.potentialOut b' := by
  have hloads : (b.replicas.map (Cluster.leadershipLoad c.leaders)).Perm
      (b'.replicas.map (Cluster.leadershipLoad c'.leaders)) := by
    rw [funext (h.leadershipLoad hled)]
    exact hb.replicas.map _
  rw [Cluster.potentialOut, Cluster.potentialOut, Cluster.potentialLoad, Cluster.potentialLoad,
    sum_eq_of_perm hloads]

theorem sameReadings (h : c.Rearranged c') (hled : (c.leaders.map (·.2.partition)).Nodup) :
    c.SameReadings c' where
  brokers := h.brokers.imp fun _ _ hb =>
    { id := hb.id
      alive := hb.alive
      load := load_eq hb
      capacity := hb.capacity
      measured := h.measured hb
      potentialOut := h.potentialOut hled hb
      numReplicas := hb.numReplicas
      numLeaders := hb.numLeaders
      numReplicasOf := hb.numReplicasOf }
  topics := h.topics
  distribution := h.distribution
  monitoredRatio := h.monitoredRatio
  windows := h.windows

/-- In exact arithmetic, clusters that differ at most in the order of the replicas on each broker
have the same report, or are refused for the same reason. -/
theorem measure (h : c.Rearranged c') (hled : (c.leaders.map (·.2.partition)).Nodup)
    (k : Constraint ℝ) : c.measure k = c'.measure k :=
  (h.sameReadings hled).measure k

end Rearranged

section Making

variable {α : Type} {brokers brokers' : List (Broker α)} {ratio : Float} {windows : Int}
  {c : Cluster α}

theorem map_id_eq_of_rearranged (h : List.Forall₂ Broker.Rearranged brokers brokers') :
    brokers.map (·.id) = brokers'.map (·.id) :=
  map_eq_of_forall₂ h fun _ _ hb => hb.id

/-- Sorting by id keeps brokers together that differ in the order of their replicas. -/
theorem inOrder_rearranged (hids : (brokers.map (·.id)).Nodup)
    (h : List.Forall₂ Broker.Rearranged brokers brokers') :
    List.Forall₂ Broker.Rearranged (inOrder brokers) (inOrder brokers') := by
  obtain ⟨sorted, hsorted, hperm⟩ := List.perm_comp_forall₂ (inOrder_perm brokers) h
  have hordered : sorted.Pairwise fun a b => a.id < b.id := by
    rw [← List.pairwise_map (f := Broker.id) (R := (· < ·)), ← map_id_eq_of_rearranged hsorted,
      List.pairwise_map]
    exact inOrder_pairwise hids
  have hids' : (brokers'.map (·.id)).Nodup := map_id_eq_of_rearranged h ▸ hids
  rwa [eq_of_perm_of_ordered (hperm.trans (inOrder_perm brokers').symm) hordered
    (inOrder_pairwise hids')] at hsorted

theorem make_rearranged (h : List.Forall₂ Broker.Rearranged brokers brokers')
    (hmake : make brokers ratio windows = .ok c) :
    ∃ c', make brokers' ratio windows = .ok c' ∧ c.Rearranged c' := by
  obtain ⟨hratio, hwindows, hids, hled, rfl⟩ := make_eq_ok_iff.mp hmake
  have hled' : (ledPartitions brokers).Perm (ledPartitions brokers') :=
    flatMap_perm_of_forall₂ h fun _ _ hb => (hb.replicas.filter _).map _
  refine ⟨⟨inOrder brokers', ratio, windows.toNat⟩, ?_, inOrder_rearranged hids h, rfl, rfl⟩
  exact make_eq_ok_iff.mpr ⟨hratio, hwindows, map_id_eq_of_rearranged h ▸ hids,
    hled'.nodup_iff.mp hled, rfl⟩

end Making

/-- Two clusters that are made of brokers in different orders are the same, and so are the answers
of the tables of the brokers and those of any holder of statistics. -/
structure SameAnswers {α : Type} [Scalar α] (brokers brokers' : List (Broker α))
    (c c' : Cluster α) : Prop where
  same : c = c'
  tables : ∃ t t', Tables.build brokers = .ok t ∧ Tables.build brokers' = .ok t' ∧
    t.Serve c ∧ t'.Serve c' ∧ t.Same t'
  call : ∀ (p : Publication α) k, p.call ⟨c, k⟩ = p.call ⟨c', k⟩

theorem sameAnswers_of_make {α : Type} [Scalar α] {brokers brokers' : List (Broker α)}
    {ratio : Float} {windows : Int} {c : Cluster α} (hids : (brokers.map (·.id)).Nodup)
    (hperm : brokers.Perm brokers') (hmake : make brokers ratio windows = .ok c) :
    SameAnswers brokers brokers' c c := by
  have hmake' : make brokers' ratio windows = .ok c := by
    rw [← make_eq_of_perm hids hperm, hmake]
  obtain ⟨t, ht, hserve⟩ := Tables.serve_of_make hmake
  obtain ⟨t', ht', hserve'⟩ := Tables.serve_of_make hmake'
  have hsame := build_alike_of_perm hids hperm
  rw [ht, ht'] at hsame
  cases hsame with
  | given hsame => exact ⟨rfl, ⟨t, t', ht, ht', hserve, hserve', hsame⟩, fun _ _ => rfl⟩

/-- Brokers with different ids that are given in two orders make the same cluster with the same
answers and the same statistics, or are refused for the same reason. This holds over any scalars,
and so on doubles as they round. In exact arithmetic the statistics stay the same if the replicas on
each broker are given in another order as well. -/
theorem order_immaterial :
    (∀ (α : Type) [Scalar α] (brokers brokers' : List (Broker α)) (ratio : Float) (windows : Int),
      (brokers.map (·.id)).Nodup → brokers.Perm brokers' →
        Alike (SameAnswers brokers brokers') (make brokers ratio windows)
          (make brokers' ratio windows)) ∧
    ∀ (brokers middle brokers' : List (Broker ℝ)) (ratio : Float) (windows : Int) (c : Cluster ℝ),
      brokers.Perm middle → List.Forall₂ Broker.Rearranged middle brokers' →
        make brokers ratio windows = .ok c →
          ∃ c', make brokers' ratio windows = .ok c' ∧
            ∀ (p : Publication ℝ) k, p.call ⟨c, k⟩ = p.call ⟨c', k⟩ := by
  constructor
  · intro α _ brokers brokers' ratio windows hids hperm
    rw [← make_eq_of_perm hids hperm]
    cases hmake : make brokers ratio windows with
    | error e => exact .refused e
    | ok c => exact .given (sameAnswers_of_make hids hperm hmake)
  · intro brokers middle brokers' ratio windows c hperm hrearranged hmake
    obtain ⟨-, -, hids, -, -⟩ := make_eq_ok_iff.mp hmake
    rw [make_eq_of_perm hids hperm] at hmake
    obtain ⟨c', hmake', h⟩ := make_rearranged hrearranged hmake
    exact ⟨c', hmake', fun p k =>
      call_eq_of_measure_eq (h.measure (nodup_leaders_of_make hmake) k) p⟩

/-- A broker that leads one partition and has another on a failed disk. -/
noncomputable def failing (first second : Replica ℝ) : Broker ℝ where
  id := 5
  capacity := PerResource.replicate 4
  replicas := [first, second]
  host := "a"
  rack := ""
  alive := true

/-- A dead broker on the same host. -/
noncomputable def bare : Broker ℝ where
  id := 2
  capacity := PerResource.replicate 2
  replicas := []
  host := "a"
  rack := ""
  alive := false

/-- The leading replica. -/
noncomputable def leading : Replica ℝ :=
  ⟨⟨"t", 0, t_ne_empty⟩, true, PerResource.replicate 1, false⟩

/-- The replica on the failed disk. -/
noncomputable def failed : Replica ℝ :=
  ⟨⟨"t", 1, t_ne_empty⟩, false, PerResource.replicate 3, true⟩

/-- The order shows neither of the scattered brokers nor of the replicas of a failing one. -/
theorem order_immaterial_scattered :
    ((scattered.map (·.id)).Nodup ∧ scattered.Perm scattered.reverse ∧
      Alike (SameAnswers scattered scattered.reverse) (make scattered 1.0 1)
        (make scattered.reverse 1.0 1)) ∧
    [failing leading failed, bare].Perm [bare, failing leading failed] ∧
      List.Forall₂ Broker.Rearranged [bare, failing leading failed]
        [bare, failing failed leading] ∧
      make [failing leading failed, bare] 1.0 1 = .ok ⟨[bare, failing leading failed], 1.0, 1⟩ ∧
      ∃ c', make [bare, failing failed leading] 1.0 1 = .ok c' ∧
        ∀ (p : Publication ℝ) k,
          p.call ⟨⟨[bare, failing leading failed], 1.0, 1⟩, k⟩ = p.call ⟨c', k⟩ := by
  have hids : (scattered.map (·.id)).Nodup := by decide
  have hreverse : scattered.Perm scattered.reverse := (List.reverse_perm scattered).symm
  have hswap : [failing leading failed, bare].Perm [bare, failing leading failed] := .swap ..
  have hrearranged : List.Forall₂ Broker.Rearranged [bare, failing leading failed]
      [bare, failing failed leading] :=
    .cons ⟨rfl, rfl, rfl, rfl, rfl, .refl _⟩ (.cons ⟨rfl, rfl, rfl, rfl, rfl, .swap ..⟩ .nil)
  have hrealIds : ([failing leading failed, bare].map (·.id)).Nodup := by simp [failing, bare]
  have hordered : inOrder [failing leading failed, bare] = [bare, failing leading failed] := by
    rw [inOrder_eq_of_perm hrealIds hswap]
    exact List.mergeSort_of_pairwise (by simp [failing, bare])
  have hmake : make [failing leading failed, bare] 1.0 1 =
      .ok ⟨[bare, failing leading failed], 1.0, 1⟩ := by
    apply make_eq_ok_iff.mpr
    rw [hordered]
    refine ⟨by decide +kernel, by decide, hrealIds, ?_, rfl⟩
    simp [ledPartitions, Broker.leaders, failing, bare, leading, failed]
  exact ⟨⟨hids, hreverse, order_immaterial.1 Float scattered _ 1.0 1 hids hreverse⟩,
    hswap, hrearranged, hmake, order_immaterial.2 _ _ _ 1.0 1 _ hswap hrearranged hmake⟩

end Cluster

end ClusterBalance
