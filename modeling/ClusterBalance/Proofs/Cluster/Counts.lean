import Mathlib
import ClusterBalance.Proofs.Cluster.Answers
import ClusterBalance.Proofs.Report.Measured
import ClusterBalance.Proofs.Report.WriteOnce

/-! The counts of a cluster, which are kept in several places. Main statement: the table of the
topics, the lists of replicas, the brokers and the published numbers count the same things, and
what is counted once for each partition is a number of different partitions. -/

namespace ClusterBalance

section Different

variable {β : Type} [DecidableEq β]

theorem encard_mem (xs : List β) : {x | x ∈ xs}.encard = xs.toFinset.card := by
  rw [← List.coe_toFinset, Set.encard_coe_eq_coe_finsetCard]

theorem length_eq_encard {xs : List β} (h : xs.Nodup) :
    (xs.length : ℕ∞) = {x | x ∈ xs}.encard := by
  rw [encard_mem, List.toFinset_card_of_nodup h]

theorem encard_le_length (xs : List β) : {x | x ∈ xs}.encard ≤ xs.length := by
  rw [encard_mem]
  exact_mod_cast xs.toFinset_card_le

theorem length_eraseDups_eq_encard (xs : List β) :
    (xs.eraseDups.length : ℕ∞) = {x | x ∈ xs}.encard := by
  have hnodup : xs.eraseDups.Nodup := by
    have := nodup_eraseDups_map id xs
    rwa [List.map_id] at this
  simp only [length_eq_encard hnodup, List.mem_eraseDups]

/-- The items of a list, counted for each key that comes up, are all of them. -/
theorem sum_countP_keys {γ : Type} (key : γ → β) (xs : List γ) :
    ((xs.map key).eraseDups.map fun k => xs.countP (key · = k)).sum = xs.length := by
  simpa using (sum_map_keys key (fun _ => (1 : ℕ)) xs).symm

end Different

namespace Cluster

variable {α : Type}

/-- The counts of a cluster and of its tables agree. -/
structure Counts (t : Tables α) (c : Cluster α) : Prop where
  all : totalCount (t.counts.map (·.2)) = c.replicas.length
  ofBrokers : (c.brokers.map (·.numReplicas)).sum = c.replicas.length
  ofTopics : (c.topics.map fun topic => (t.counts.lookup topic).getD 0).sum = c.replicas.length
  ofTopic : ∀ topic : LooseText,
    (t.counts.lookup topic).getD 0 = (c.brokers.map (·.numReplicasOf topic)).sum
  ofText : ∀ text : LooseText, c.numReplicasFor (.string text) =
    .ok (c.brokers.map (·.numReplicasFor (.string text))).sum
  ascending : c.topics.Pairwise (· < ·)
  topics : ∀ topic, topic ∈ c.topics ↔ 0 < (t.counts.lookup topic).getD 0
  leaders : ∀ b ∈ c.brokers, b.numLeaders = b.leaders.length
  led : ((c.brokers.map (·.numLeaders)).sum : ℕ) = {p | t.leaders.lookup p ≠ none}.encard
  toHeal : (c.distribution.partitionsToHeal : ℕ∞) =
    {p | ∃ b ∈ c.brokers, ∃ r ∈ b.replicas, r.partition = p ∧
      (b.alive = false ∨ r.offline = true)}.encard
  toHeal_le : (c.distribution.partitionsToHeal : ℕ∞) ≤
    {p | ∃ r ∈ c.replicas, r.partition = p}.encard
  partitions_le : {p | ∃ r ∈ c.replicas, r.partition = p}.encard ≤ c.replicas.length

/-- The numbers that are published are those of a cluster. -/
structure Publishes (p : Publication α) (c : Cluster α) : Prop where
  brokers : p.numBrokers = c.brokers.length
  alive : p.numAlive = c.aliveBrokers.length
  replicas : p.numReplicas = c.replicas.length
  topics : p.numTopics = c.topics.length
  toHeal : p.partitionsToHeal = c.distribution.partitionsToHeal

section Replicas

variable (c : Cluster α)

theorem sum_numReplicas : (c.brokers.map (·.numReplicas)).sum = c.replicas.length := by
  rw [replicas, List.length_flatMap]
  rfl

theorem numLeaders_le (b : Broker α) : b.numLeaders ≤ b.numReplicas := List.countP_le_length

theorem numReplicasOf_le (b : Broker α) (topic : LooseText) :
    b.numReplicasOf topic ≤ b.numReplicas :=
  List.countP_le_length

theorem numReplicasOf_eq_countP (topic : LooseText) :
    c.numReplicasOf topic = c.replicas.countP fun r => r.topic = topic := by
  rw [numReplicasOf, totalCount_eq_sum, replicas, List.countP_flatMap]
  rfl

theorem topics_perm : c.topics.Perm (c.replicas.map (·.topic)).eraseDups :=
  List.mergeSort_perm _ _

theorem sum_numReplicasOf_topics : (c.topics.map c.numReplicasOf).sum = c.replicas.length := by
  rw [(c.topics_perm.map _).sum_nat, funext c.numReplicasOf_eq_countP]
  exact sum_countP_keys (·.topic) c.replicas

theorem mem_topics_iff {topic : LooseText} :
    topic ∈ c.topics ↔ ∃ r ∈ c.replicas, r.topic = topic := by
  rw [c.topics_perm.mem_iff, List.mem_eraseDups, List.mem_map]

theorem topics_ascending : c.topics.Pairwise (· < ·) := by
  have hkept {s t : LooseText} : (!decide (t < s)) = true ↔ s.codes ≤ t.codes := by
    rw [Bool.not_eq_true', decide_eq_false_iff_not, LooseText.not_lt_iff]
  have htrans (s t u : LooseText) (hst : (!decide (t < s)) = true)
      (htu : (!decide (u < t)) = true) : (!decide (u < s)) = true :=
    hkept.mpr ((hkept.mp hst).trans (hkept.mp htu))
  have htotal (s t : LooseText) : (!decide (t < s) || !decide (s < t)) = true := by
    rw [Bool.or_eq_true, hkept, hkept]
    exact le_total s.codes t.codes
  have hle : c.topics.Pairwise fun s t => (!decide (t < s)) = true :=
    List.pairwise_mergeSort htrans htotal _
  have hne : c.topics.Pairwise (· ≠ ·) :=
    c.topics_perm.nodup_iff.mpr (nodup_eraseDups_map _ _)
  refine (hle.and hne).imp fun {s t} ⟨hle, hne⟩ => ?_
  exact LooseText.lt_of_not_lt (of_decide_eq_false ((Bool.not_eq_true' _).mp hle)) hne

theorem mem_topics_iff_pos {topic : LooseText} : topic ∈ c.topics ↔ 0 < c.numReplicasOf topic := by
  simp [mem_topics_iff, numReplicasOf_eq_countP, List.countP_pos_iff]

theorem sum_numLeaders : (c.brokers.map (·.numLeaders)).sum = c.leaders.length := by
  rw [leaders, ← List.countP_eq_length_filter, placements, List.countP_flatMap]
  simp only [Function.comp_def, List.countP_map, Broker.numLeaders]

theorem mem_healing_iff {x : Nat × Replica α} :
    x ∈ c.healing ↔ ∃ b ∈ c.brokers, x.1 = b.id ∧ x.2 ∈ b.replicas ∧
      (b.alive = false ∨ x.2.offline = true) := by
  simp only [healing, List.mem_flatMap, List.mem_map, List.mem_filter, Bool.or_eq_true,
    Bool.not_eq_true']
  constructor
  · rintro ⟨b, hb, r, ⟨hr, hheal⟩, rfl⟩
    exact ⟨b, hb, rfl, hr, hheal⟩
  · obtain ⟨id, r⟩ := x
    rintro ⟨b, hb, rfl, hr, hheal⟩
    exact ⟨b, hb, r, ⟨hr, hheal⟩, rfl⟩

end Replicas

section Partitions

variable (c : Cluster α)

theorem partitionsToHeal_eq : (c.distribution.partitionsToHeal : ℕ∞) =
    {p | ∃ b ∈ c.brokers, ∃ r ∈ b.replicas, r.partition = p ∧
      (b.alive = false ∨ r.offline = true)}.encard := by
  have hpartitions : {p | ∃ b ∈ c.brokers, ∃ r ∈ b.replicas, r.partition = p ∧
      (b.alive = false ∨ r.offline = true)} = {p | p ∈ c.healing.map (·.2.partition)} := by
    ext p
    simp only [Set.mem_ofPred_eq, List.mem_map, mem_healing_iff]
    constructor
    · rintro ⟨b, hb, r, hr, rfl, hheal⟩
      exact ⟨(b.id, r), ⟨b, hb, rfl, hr, hheal⟩, rfl⟩
    · rintro ⟨⟨_, r⟩, ⟨b, hb, -, hr, hheal⟩, rfl⟩
      exact ⟨b, hb, r, hr, rfl, hheal⟩
  rw [hpartitions]
  exact length_eraseDups_eq_encard _

theorem encard_partitions_le :
    {p | ∃ r ∈ c.replicas, r.partition = p}.encard ≤ c.replicas.length := by
  have hpartitions : {p | ∃ r ∈ c.replicas, r.partition = p} =
      {p | p ∈ c.replicas.map (·.partition)} := by
    ext p
    simp
  rw [hpartitions, ← List.length_map (f := (·.partition))]
  exact encard_le_length _

theorem partitionsToHeal_le :
    (c.distribution.partitionsToHeal : ℕ∞) ≤ {p | ∃ r ∈ c.replicas, r.partition = p}.encard := by
  rw [partitionsToHeal_eq]
  apply Set.encard_le_encard
  rintro p ⟨b, hb, r, hr, hp, -⟩
  exact ⟨r, List.mem_flatMap.mpr ⟨b, hb, hr⟩, hp⟩

/-- No two leaders lead the same partition, so there are as many as partitions that are led. -/
theorem length_leaders_eq_encard {c : Cluster α} (h : (c.leaders.map (·.2.partition)).Nodup) :
    (c.leaders.length : ℕ∞) = {p | c.leader? p ≠ none}.encard := by
  have hled : {p | c.leader? p ≠ none} = {p | p ∈ c.leaders.map (·.2.partition)} := by
    ext p
    simp [leader?, List.find?_eq_none]
  rw [hled, ← length_eq_encard h, List.length_map]

end Partitions

/-- The tables that serve a cluster count as it does. -/
theorem counts_of_serve {t : Tables α} {c : Cluster α} (h : t.Serve c)
    (hled : (c.leaders.map (·.2.partition)).Nodup) : c.Counts t where
  all := by rw [h.numReplicas, numReplicas, totalCount_eq_sum, sum_numReplicas]
  ofBrokers := c.sum_numReplicas
  ofTopics := by
    simp only [h.numReplicasOf]
    exact c.sum_numReplicasOf_topics
  ofTopic := fun topic => by rw [h.numReplicasOf, numReplicasOf, totalCount_eq_sum]
  ofText := fun text => by
    rw [← totalCount_eq_sum]
    rfl
  ascending := c.topics_ascending
  topics := fun topic => by rw [h.numReplicasOf, mem_topics_iff_pos]
  leaders := fun b _ => List.countP_eq_length_filter
  led := by
    simp only [h.leader]
    rw [sum_numLeaders, length_leaders_eq_encard hled]
  toHeal := c.partitionsToHeal_eq
  toHeal_le := c.partitionsToHeal_le
  partitions_le := c.encard_partitions_le

/-- A holder that is filled from a cluster publishes the counts of that cluster, whatever calls
failed on it before. -/
theorem publishes_of_answer [Scalar α] {calls : List (Call α)} {x : Call α}
    (h : Publication.answer calls x = .ok ()) :
    x.cluster.Publishes (Publication.after (calls ++ [x])) := by
  obtain ⟨hnone, report, hreport⟩ := Publication.answer_eq_ok_iff.mp h
  have hmeasured := measured_of_measure hreport
  have hafter : Publication.after (calls ++ [x]) = .ofReport report := by
    apply Publication.after_of_firstReport?_eq_some
    unfold Publication.firstReport? at hnone ⊢
    rw [List.findSome?_append, hnone, List.findSome?_cons, hreport]
    rfl
  rw [hafter]
  refine ⟨hmeasured.numBrokers, hmeasured.numAlive, ?_, hmeasured.numTopics,
    hmeasured.partitionsToHeal⟩
  rw [← sum_numReplicas, ← totalCount_eq_sum]
  exact hmeasured.numReplicas

/-- The tables of the brokers that a cluster is made of count as the cluster does, and a holder of
statistics that is filled from the cluster publishes these counts. -/
theorem make_counts [Scalar α] {brokers : List (Broker α)} {ratio : Float} {windows : Int}
    {c : Cluster α} (h : make brokers ratio windows = .ok c) :
    ∃ t, Tables.build brokers = .ok t ∧ t.Serve c ∧ c.Counts t ∧
      ∀ calls k, Publication.answer calls ⟨c, k⟩ = .ok () →
        c.Publishes (Publication.after (calls ++ [⟨c, k⟩])) := by
  obtain ⟨t, ht, hserve⟩ := Tables.serve_of_make h
  exact ⟨t, ht, hserve, counts_of_serve hserve (nodup_leaders_of_make h),
    fun _ _ hanswer => publishes_of_answer hanswer⟩

/-- Three brokers, the second of which is dead and leads the only partition that has a leader. The
other partition has a replica on a failed disk. -/
def ailing : Cluster Float where
  brokers :=
    [ { id := 2, capacity := PerResource.replicate 1.0, host := "a", rack := "", alive := true
        replicas := [⟨⟨"t", 1, t_ne_empty⟩, false, PerResource.replicate 0.5, true⟩] },
      { id := 5, capacity := PerResource.replicate 1.0, host := "b", rack := "", alive := false
        replicas := [⟨⟨"t", 0, t_ne_empty⟩, true, PerResource.replicate 0.5, false⟩] },
      { id := 7, capacity := PerResource.replicate 1.0, host := "a", rack := "", alive := true
        replicas := [⟨⟨"t", 0, t_ne_empty⟩, false, PerResource.replicate 0.5, false⟩] } ]
  monitoredRatio := 1.0
  windows := 1

/-- The ailing cluster has three replicas of two partitions, one of which is led and both of which
need healing. -/
theorem make_counts_ailing :
    make ailing.brokers 1.0 1 = .ok ailing ∧
      Publication.answer [Publication.vacantCall] ⟨ailing, Constraint.default⟩ = .ok () ∧
      (∃ t, Tables.build ailing.brokers = .ok t ∧ t.Serve ailing ∧ ailing.Counts t ∧
        {p | t.leaders.lookup p ≠ none}.encard = 1) ∧
      ailing.Publishes
        (Publication.after [Publication.vacantCall, ⟨ailing, Constraint.default⟩]) ∧
      ailing.distribution = ⟨3, 2⟩ := by
  have hsorted : inOrder ailing.brokers = ailing.brokers :=
    List.mergeSort_of_pairwise (by decide)
  have hmake : make ailing.brokers 1.0 1 = .ok ailing := by
    apply make_eq_ok_iff.mpr
    exact ⟨by decide +kernel, by decide, by decide, by decide, by rw [hsorted]; rfl⟩
  obtain ⟨⟨⟩, hanswer⟩ :
      ∃ a, Publication.answer [Publication.vacantCall] ⟨ailing, Constraint.default⟩ = .ok a :=
    exists_eq_ok_of_isOk (by decide +kernel)
  obtain ⟨t, ht, hserve, hcounts, hpublishes⟩ := make_counts hmake
  have hpublished := hpublishes [Publication.vacantCall] Constraint.default hanswer
  rw [List.singleton_append] at hpublished
  refine ⟨hmake, hanswer, ⟨t, ht, hserve, hcounts, ?_⟩, hpublished, by decide +kernel⟩
  have hleaders : (ailing.brokers.map (·.numLeaders)).sum = 1 := by decide
  rw [← hcounts.led, hleaders, Nat.cast_one]

end Cluster

end ClusterBalance
