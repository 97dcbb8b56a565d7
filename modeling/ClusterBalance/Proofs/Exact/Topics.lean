import Mathlib
import ClusterBalance.Proofs.Cluster.Counts
import ClusterBalance.Proofs.Exact.Averages

/-! The replicas of the topics against those of the brokers, in exact arithmetic. Main statement:
topic by topic the replicas on the alive brokers are all counted once, so the average over the
topics falls short of that over the brokers by what the dead brokers hold; no extreme of a topic is
above the one of all replicas, and no topic deviates exactly if each is spread evenly. -/

namespace ClusterBalance

namespace Cluster

section Counts

variable {c : Cluster ℝ}

theorem sum_countP_topics {xs : List (Replica ℝ)} (h : xs ⊆ c.replicas) :
    (c.topics.map fun topic => xs.countP (·.topic = topic)).sum = xs.length := by
  have hnodup : c.topics.Nodup := c.topics_perm.nodup_iff.mpr (nodup_eraseDups_map _ _)
  have hmem : ∀ topic ∈ (xs.map (·.topic) : Multiset LooseText), topic ∈ c.topics.toFinset := by
    intro topic htopic
    obtain ⟨x, hx, rfl⟩ := List.mem_map.mp (Multiset.mem_coe.mp htopic)
    exact List.mem_toFinset.mpr (c.mem_topics_iff.mpr ⟨x, h hx, rfl⟩)
  -- the topics differ, so the one of a replica comes once among them
  have hcount := Multiset.sum_count_eq_card hmem
  rw [List.sum_toFinset _ hnodup, Multiset.coe_card, List.length_map] at hcount
  rw [← hcount]
  refine congrArg List.sum (List.map_congr_left fun topic _ => ?_)
  rw [Multiset.coe_count, List.count, List.countP_map]
  exact List.countP_congr fun x _ => by simp

/-- Counted by topic and then by broker, the replicas on alive brokers are those that they have. -/
theorem sum_totalCount_topics (c : Cluster ℝ) :
    (c.topics.map fun topic => totalCount (c.aliveBrokers.map (·.numReplicasOf topic))).sum =
      totalCount (c.aliveBrokers.map (·.numReplicas)) := by
  have hsubset : c.aliveBrokers.flatMap (·.replicas) ⊆ c.replicas := by
    intro x hx
    obtain ⟨b, hb, hx⟩ := List.mem_flatMap.mp hx
    exact List.mem_flatMap.mpr ⟨b, (List.mem_filter.mp hb).1, hx⟩
  have htopic (topic : LooseText) : totalCount (c.aliveBrokers.map (·.numReplicasOf topic)) =
      (c.aliveBrokers.flatMap (·.replicas)).countP (·.topic = topic) := by
    rw [totalCount_eq_sum, List.countP_flatMap]
    rfl
  rw [funext htopic, sum_countP_topics hsubset, totalCount_eq_sum, List.length_flatMap]
  rfl

end Counts

end Cluster

namespace Exact

variable {c : Cluster ℝ}

theorem deviation_of_summarizeTopic (halive : c.aliveBrokers ≠ []) {topic : LooseText}
    {s : Spread ℝ Nat} (h : c.summarizeTopic (.count c.aliveBrokers.length) topic = .ok s) :
    s.deviation = Real.sqrt (variance (c.aliveBrokers.map (·.numReplicasOf topic))) := by
  obtain ⟨-, -, -, hdeviation⟩ := Cluster.parts_of_summarizeTopic h
  have hcounts : c.aliveBrokers.map (·.numReplicasOf topic) ≠ [] :=
    List.map_eq_nil_iff.not.mpr halive
  rw [average_of_summarizeTopic halive h, ← List.length_map (f := (·.numReplicasOf topic)),
    countDeviation_length hcounts] at hdeviation
  exact (Except.ok.inj hdeviation).symm

theorem deviation_of_summarizeTopics (halive : c.aliveBrokers ≠ []) {s : Spread ℝ Nat}
    (h : c.summarizeTopics (.count c.aliveBrokers.length) = .ok s) :
    s.deviation = (c.topics.map fun topic =>
      Real.sqrt (variance (c.aliveBrokers.map (·.numReplicasOf topic)))).sum / c.topics.length := by
  obtain ⟨spreads, hspreads, -, -, -, hdeviation⟩ := Cluster.parts_of_summarizeTopics h
  have hdeviations := map_eq_of_mapM_eq_ok hspreads fun _ _ _ hs =>
    deviation_of_summarizeTopic halive hs
  rw [hdeviations, sum_eq] at hdeviation
  exact_mod_cast eq_of_divideByCount hdeviation

/-- The topics together count the replicas on the alive brokers. -/
theorem average_mul_topics (halive : c.aliveBrokers ≠ []) {s : Spread ℝ Nat}
    (h : c.summarizeTopics (.count c.aliveBrokers.length) = .ok s) :
    s.average * c.topics.length =
      (totalCount (c.aliveBrokers.map (·.numReplicas)) : ℝ) / c.aliveBrokers.length := by
  have htopics : (c.topics.length : ℝ) ≠ 0 :=
    (length_pos_real (Cluster.topics_ne_nil_of_summarizeTopics h)).ne'
  rw [average_of_summarizeTopics halive h, div_mul_cancel₀ _ htopics, ← c.sum_totalCount_topics]
  simp only [mean, List.length_map, div_eq_mul_inv, List.sum_map_mul_right, Nat.cast_list_sum,
    List.map_map, Function.comp_def]

theorem deviation_eq_zero_iff_of_summarizeTopics (halive : c.aliveBrokers ≠ []) {s : Spread ℝ Nat}
    (h : c.summarizeTopics (.count c.aliveBrokers.length) = .ok s) :
    s.deviation = 0 ↔ ∀ topic ∈ c.topics, ∀ a ∈ c.aliveBrokers, ∀ b ∈ c.aliveBrokers,
      a.numReplicasOf topic = b.numReplicasOf topic := by
  have htopics : (c.topics.length : ℝ) ≠ 0 :=
    (length_pos_real (Cluster.topics_ne_nil_of_summarizeTopics h)).ne'
  rw [deviation_of_summarizeTopics halive h, div_eq_zero_iff, or_iff_left htopics,
    sum_eq_zero_iff_of_nonneg fun _ _ => Real.sqrt_nonneg _]
  refine forall₂_congr fun topic _ => ?_
  rw [Real.sqrt_eq_zero (variance_nonneg _), variance_eq_zero_iff]
  simp only [List.forall_mem_map]

end Exact

namespace Cluster

variable {c : Cluster ℝ} {k : Constraint ℝ} {report : Report ℝ}

/-- How the figures of a report for the topics fit to those for all replicas. -/
structure TopicsFit (c : Cluster ℝ) (report : Report ℝ) : Prop where
  average : report.topics.average * c.topics.length * c.aliveBrokers.length =
    (c.aliveBrokers.flatMap (·.replicas)).length
  average_le : report.topics.average * c.topics.length ≤ report.replicas.average
  average_eq_iff : report.topics.average * c.topics.length = report.replicas.average ↔
    ∀ b ∈ c.deadBrokers, b.replicas = []
  maximum_le : report.topics.maximum ≤ report.replicas.maximum
  minimum_le : report.topics.minimum ≤ report.replicas.minimum
  deviation_eq_zero_iff : report.topics.deviation = 0 ↔
    ∀ topic ∈ c.topics, ∀ a ∈ c.aliveBrokers, ∀ b ∈ c.aliveBrokers,
      a.numReplicasOf topic = b.numReplicasOf topic

theorem greatestCount_topics_le (c : Cluster ℝ) :
    greatestCount
        (c.topics.map fun topic => greatestCount (c.brokers.map (·.numReplicasOf topic))) ≤
      greatestCount (c.brokers.map (·.numReplicas)) := by
  refine greatestCount_le_iff.mpr (List.forall_mem_map.mpr fun topic _ => ?_)
  refine greatestCount_le_iff.mpr (List.forall_mem_map.mpr fun b hb => ?_)
  exact (numReplicasOf_le b topic).trans (le_greatestCount (List.mem_map_of_mem hb))

theorem leastCount_topics_le (h : c.topics ≠ []) :
    leastCount (c.topics.map fun topic => leastCount (c.brokers.map (·.numReplicasOf topic))) ≤
      leastCount (c.brokers.map (·.numReplicas)) := by
  obtain ⟨topic, htopic⟩ := List.exists_mem_of_ne_nil _ h
  refine le_leastCount_iff.mpr ⟨(le_leastCount_iff.mp le_rfl).1,
    List.forall_mem_map.mpr fun b hb => ?_⟩
  calc leastCount (c.topics.map fun topic => leastCount (c.brokers.map (·.numReplicasOf topic)))
    _ ≤ leastCount (c.brokers.map (·.numReplicasOf topic)) :=
        leastCount_le (List.mem_map_of_mem (f := fun topic => leastCount _) htopic)
    _ ≤ b.numReplicasOf topic := leastCount_le (List.mem_map_of_mem hb)
    _ ≤ b.numReplicas := numReplicasOf_le b topic

/-- The figures for the topics in a report against those for all replicas. -/
theorem measure_topicsFit (h : c.measure k = .ok report) : c.TopicsFit report := by
  have hmeasured := measured_of_measure h
  have halive := hmeasured.alive
  have hlength : (c.aliveBrokers.length : ℝ) ≠ 0 := (Exact.length_pos_real halive).ne'
  have htopics := Exact.average_mul_topics halive hmeasured.topics
  have hreplicas : report.replicas.average =
      report.topics.average * c.topics.length +
        (totalCount (c.deadBrokers.map (·.numReplicas)) : ℝ) / c.aliveBrokers.length := by
    have hcounts := hmeasured.replicas
    rw [Exact.summarizeCounts_eq halive] at hcounts
    rw [htopics, ← Except.ok.inj hcounts, totalCount_brokers, Nat.cast_add, add_div]
  obtain ⟨hmaximum, hminimum⟩ := extremes_of_summarizeTopics hmeasured.topics
  obtain ⟨hmaximum', hminimum'⟩ := extremes_of_summarizeCounts hmeasured.replicas
  refine ⟨?_, ?_, ?_, ?_, ?_,
    Exact.deviation_eq_zero_iff_of_summarizeTopics halive hmeasured.topics⟩
  · rw [htopics, div_mul_cancel₀ _ hlength, totalCount_eq_sum, List.length_flatMap]
    rfl
  · rw [hreplicas]
    exact le_add_of_nonneg_right (by positivity)
  · rw [hreplicas, left_eq_add, div_eq_zero_iff, or_iff_left hlength, Nat.cast_eq_zero,
      totalCount_eq_zero_iff]
    simp only [Broker.numReplicas, List.length_eq_zero_iff]
  · rw [hmaximum, hmaximum']
    exact c.greatestCount_topics_le
  · rw [hminimum, hminimum']
    exact leastCount_topics_le (topics_ne_nil_of_summarizeTopics hmeasured.topics)

/-- The one topic is spread evenly over the alive brokers, and the dead one holds a replica. -/
theorem measure_topicsFit_bereft : ∃ report, bereft.measure (uniform 2 1) = .ok report ∧
    bereft.TopicsFit report ∧ report.topics.deviation = 0 ∧
      report.topics.average * bereft.topics.length < report.replicas.average := by
  obtain ⟨report, hreport⟩ := measure_of_measurable bereft_accepted bereft_measurable
    bereft_idsWritten (uniform 2 1)
  have hfit := measure_topicsFit hreport
  refine ⟨report, hreport, hfit, hfit.deviation_eq_zero_iff.mpr fun topic _ a ha b hb => ?_, ?_⟩
  · have hsame : ∀ b ∈ bereft.brokers,
        b.numReplicasOf topic = (loaded 0 "a" 1).numReplicasOf topic := by
      intro b hb
      rcases (by simpa [bereft] using hb) with rfl | rfl | rfl <;> rfl
    have hmem {b : Broker ℝ} (hb : b ∈ bereft.aliveBrokers) : b ∈ bereft.brokers :=
      (List.mem_filter.mp hb).1
    rw [hsame a (hmem ha), hsame b (hmem hb)]
  · refine lt_of_le_of_ne hfit.average_le fun heq => ?_
    have hdead := hfit.average_eq_iff.mp heq _ (List.mem_singleton.mpr rfl)
    exact absurd hdead (List.cons_ne_nil _ _)

end Cluster

end ClusterBalance
