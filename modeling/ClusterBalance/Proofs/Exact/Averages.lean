import Mathlib
import ClusterBalance.Proofs.Exact.Deviation
import ClusterBalance.Proofs.Statistics.Extremes
import ClusterBalance.Proofs.Statistics.Measurable

/-! The averages of a report against its extremes, in exact arithmetic. An average divides by the
number of alive brokers what all brokers bring in, so dead brokers can lift it above the maximum,
and what is measured by host counts once for each broker there, so its minimum can lie above the
average. Main statement: which averages are at least the minimum and at most the maximum whatever
brokers are dead, and that all of them are at most the maximum if none is. -/

namespace ClusterBalance

namespace Exact

section Mean

variable {xs : List ℝ} {bound total : ℝ}

theorem le_div_length (h : xs ≠ []) (hbound : ∀ x ∈ xs, bound ≤ x) (htotal : xs.sum ≤ total) :
    bound ≤ total / xs.length := by
  rw [le_div_iff₀ (length_pos_real h), mul_comm, ← nsmul_eq_mul]
  exact (List.card_nsmul_le_sum xs bound hbound).trans htotal

theorem div_length_le (h : xs ≠ []) (hbound : ∀ x ∈ xs, x ≤ bound) (htotal : total ≤ xs.sum) :
    total / xs.length ≤ bound := by
  rw [div_le_iff₀ (length_pos_real h), mul_comm, ← nsmul_eq_mul]
  exact htotal.trans (List.sum_le_card_nsmul xs bound hbound)

theorem le_foldl_larger (start : ℝ) {x : ℝ} (hx : x ∈ xs) : x ≤ xs.foldl Scalar.larger start := by
  have hpicks : Picks id (fun _ : ℝ => True) Scalar.larger :=
    picks_ite (fun _ _ _ => trivial) fun _ _ _ _ => Iff.rfl
  exact (hpicks.foldl trivial xs).item_le x hx trivial

theorem foldl_smaller_le (start : ℝ) {x : ℝ} (hx : x ∈ xs) : xs.foldl Scalar.smaller start ≤ x := by
  have hpicks : Picks OrderDual.toDual (fun _ : ℝ => True) Scalar.smaller :=
    picks_ite (fun _ _ _ => trivial) fun _ _ _ _ => Iff.rfl
  exact (hpicks.foldl trivial xs).item_le x hx trivial

end Mean

section Counts

variable {counts all : List Nat}

/-- The least of all counts is not above the mean of some of them. -/
theorem leastCount_le_mean (h : counts ≠ []) (hsome : counts ⊆ all) :
    (leastCount all : ℝ) ≤ mean counts := by
  have hbound : ∀ x ∈ counts.map fun m : Nat => (m : ℝ), (leastCount all : ℝ) ≤ x :=
    List.forall_mem_map.mpr fun m hm => Nat.cast_le.mpr (leastCount_le (hsome hm))
  have hmean := le_div_length (List.map_eq_nil_iff.not.mpr h) hbound (cast_totalCount counts).ge
  rwa [List.length_map] at hmean

/-- The mean of some counts is not above the greatest of all. -/
theorem mean_le_greatestCount (h : counts ≠ []) (hsome : counts ⊆ all) :
    mean counts ≤ greatestCount all := by
  have hbound : ∀ x ∈ counts.map fun m : Nat => (m : ℝ), x ≤ (greatestCount all : ℝ) :=
    List.forall_mem_map.mpr fun m hm => Nat.cast_le.mpr (le_greatestCount (hsome hm))
  have hmean := div_length_le (List.map_eq_nil_iff.not.mpr h) hbound (cast_totalCount counts).le
  rwa [List.length_map] at hmean

end Counts

section Summaries

variable {c : Cluster ℝ} {k : Constraint ℝ} {r : Resource} {count : Broker ℝ → Nat}

theorem average_of_spread {total : ℝ} {readings : List (BrokerReading ℝ)} {spread : Spread ℝ ℝ}
    (halive : c.aliveBrokers ≠ [])
    (h : spreadOfReadings total (.count c.aliveBrokers.length) readings = .ok spread) :
    spread.average = total / c.aliveBrokers.length := by
  have haverage := (parts_of_spread h).1
  rw [countDivide_eq (length_pos_int halive)] at haverage
  exact_mod_cast (Except.ok.inj haverage).symm

/-- A resource that brokers do not share is used on average as much as the least of any. -/
theorem minimum_le_average_of_unshared (hc : c.Accepted) (halive : c.aliveBrokers ≠ [])
    (hr : r.isShared = false) {s : ResourceSummary ℝ}
    (h : c.summarizeResource k r (.count c.aliveBrokers.length) = .ok s) :
    s.spread.minimum ≤ s.spread.average := by
  obtain ⟨_, _, -, -, hspread, -⟩ := Cluster.parts_of_summarizeResource h
  have hmeasured (b : Broker ℝ) : (c.measured r b).1 = b.load.get r := by
    rw [Cluster.measured, hr]
    rfl
  have htotal : (c.aliveBrokers.map fun b => (c.measured r b).1).sum ≤ c.load.get r := by
    rw [load_eq_sum, funext hmeasured]
    refine (List.filter_sublist.map _).sum_le_sum (List.forall_mem_map.mpr fun b hb => ?_)
    exact load_nonneg hc hb r
  rw [(Cluster.extremes_of_summarizeResource h).2, average_of_spread halive hspread,
    ← List.length_map]
  exact le_div_length (List.map_eq_nil_iff.not.mpr halive) (fun x => foldl_smaller_le _) htotal

/-- Where no broker is dead, what is measured of some broker is at least the average. -/
theorem average_le_maximum_of_allAlive (hc : c.Accepted) (halive : c.aliveBrokers ≠ [])
    (hall : c.aliveBrokers = c.brokers) {s : ResourceSummary ℝ}
    (h : c.summarizeResource k r (.count c.aliveBrokers.length) = .ok s) :
    s.spread.average ≤ s.spread.maximum := by
  obtain ⟨_, _, -, -, hspread, -⟩ := Cluster.parts_of_summarizeResource h
  have htotal : c.load.get r ≤ (c.aliveBrokers.map fun b => (c.measured r b).1).sum := by
    rw [load_eq_sum, hall]
    exact List.sum_le_sum fun b hb => load_le_used hc hb r
  rw [(Cluster.extremes_of_summarizeResource h).1, average_of_spread halive hspread,
    ← List.length_map]
  exact div_length_le (List.map_eq_nil_iff.not.mpr halive) (fun x => le_foldl_larger _) htotal

/-- The potential load is summed over the brokers that it is measured of. -/
theorem average_between_of_summarizePotential (halive : c.aliveBrokers ≠ [])
    {s : PotentialSummary ℝ}
    (h : c.summarizePotential k (.count c.aliveBrokers.length) = .ok s) :
    s.spread.minimum ≤ s.spread.average ∧ s.spread.average ≤ s.spread.maximum := by
  obtain ⟨_, _, -, -, hspread, -⟩ := Cluster.parts_of_summarizePotential h
  have hne : c.aliveBrokers.map c.potentialOut ≠ [] := List.map_eq_nil_iff.not.mpr halive
  rw [(Cluster.extremes_of_summarizePotential h).1, (Cluster.extremes_of_summarizePotential h).2,
    average_of_spread halive hspread, ← List.length_map]
  exact ⟨le_div_length hne (fun x => foldl_smaller_le _) le_rfl,
    div_length_le hne (fun x => le_foldl_larger _) le_rfl⟩

theorem map_aliveBrokers_subset (c : Cluster ℝ) (count : Broker ℝ → Nat) :
    c.aliveBrokers.map count ⊆ c.brokers.map count :=
  List.map_subset count (List.filter_subset_self c.brokers)

theorem minimum_le_average_of_summarizeCounts (halive : c.aliveBrokers ≠ []) {s : Spread ℝ Nat}
    (h : c.summarizeCounts count (.count c.aliveBrokers.length) = .ok s) :
    s.minimum ≤ s.average := by
  rw [summarizeCounts_eq halive] at h
  cases h
  calc (leastCount (c.brokers.map count) : ℝ)
    _ ≤ mean (c.aliveBrokers.map count) :=
        leastCount_le_mean (List.map_eq_nil_iff.not.mpr halive) (map_aliveBrokers_subset c count)
    _ ≤ (totalCount (c.brokers.map count) : ℝ) / c.aliveBrokers.length := by
        rw [mean, List.length_map, Cluster.totalCount_brokers]
        push_cast
        gcongr
        exact le_add_of_nonneg_right (Nat.cast_nonneg _)

theorem average_le_maximum_of_summarizeCounts (halive : c.aliveBrokers ≠ [])
    (hall : c.aliveBrokers = c.brokers) {s : Spread ℝ Nat}
    (h : c.summarizeCounts count (.count c.aliveBrokers.length) = .ok s) :
    s.average ≤ s.maximum := by
  rw [summarizeCounts_eq halive] at h
  cases h
  have hmean := mean_le_greatestCount (List.map_eq_nil_iff.not.mpr halive)
    (map_aliveBrokers_subset c count)
  rw [mean, List.length_map] at hmean
  rwa [hall] at hmean ⊢

/-- The replicas of a topic on dead brokers have no part in its average. -/
theorem average_of_summarizeTopic (halive : c.aliveBrokers ≠ []) {topic : LooseText}
    {s : Spread ℝ Nat} (h : c.summarizeTopic (.count c.aliveBrokers.length) topic = .ok s) :
    s.average = mean (c.aliveBrokers.map (·.numReplicasOf topic)) := by
  have haverage := (Cluster.parts_of_summarizeTopic h).1
  rw [countDivideCount_eq (length_pos_int halive), Int.cast_natCast, Int.cast_natCast] at haverage
  rw [mean, List.length_map]
  exact (Except.ok.inj haverage).symm

theorem average_of_summarizeTopics (halive : c.aliveBrokers ≠ []) {s : Spread ℝ Nat}
    (h : c.summarizeTopics (.count c.aliveBrokers.length) = .ok s) :
    s.average = (c.topics.map fun topic =>
      mean (c.aliveBrokers.map (·.numReplicasOf topic))).sum / c.topics.length := by
  obtain ⟨spreads, hspreads, haverage, -⟩ := Cluster.parts_of_summarizeTopics h
  have haverages := map_eq_of_mapM_eq_ok hspreads fun _ _ _ hs =>
    average_of_summarizeTopic halive hs
  rw [haverages, sum_eq] at haverage
  exact_mod_cast eq_of_divideByCount haverage

theorem average_between_of_summarizeTopics (halive : c.aliveBrokers ≠ []) {s : Spread ℝ Nat}
    (h : c.summarizeTopics (.count c.aliveBrokers.length) = .ok s) :
    s.minimum ≤ s.average ∧ s.average ≤ s.maximum := by
  have hne : (c.topics.map fun topic =>
      mean (c.aliveBrokers.map (·.numReplicasOf topic))) ≠ [] :=
    List.map_eq_nil_iff.not.mpr (Cluster.topics_ne_nil_of_summarizeTopics h)
  have hcounts (topic : LooseText) : c.aliveBrokers.map (·.numReplicasOf topic) ≠ [] :=
    List.map_eq_nil_iff.not.mpr halive
  obtain ⟨hmaximum, hminimum⟩ := Cluster.extremes_of_summarizeTopics h
  rw [hmaximum, hminimum, average_of_summarizeTopics halive h, ← List.length_map]
  refine ⟨le_div_length hne (List.forall_mem_map.mpr fun topic htopic => ?_) le_rfl,
    div_length_le hne (List.forall_mem_map.mpr fun topic htopic => ?_) le_rfl⟩
  · have hleast := leastCount_le (List.mem_map_of_mem
      (f := fun topic => leastCount (c.brokers.map (·.numReplicasOf topic))) htopic)
    exact (Nat.cast_le.mpr hleast).trans
      (leastCount_le_mean (hcounts topic) (map_aliveBrokers_subset c _))
  · have hgreatest := le_greatestCount (List.mem_map_of_mem
      (f := fun topic => greatestCount (c.brokers.map (·.numReplicasOf topic))) htopic)
    exact (mean_le_greatestCount (hcounts topic) (map_aliveBrokers_subset c _)).trans
      (Nat.cast_le.mpr hgreatest)

end Summaries

end Exact

namespace Cluster

variable {c : Cluster ℝ} {k : Constraint ℝ} {report : Report ℝ}

/-- Which averages of a report are at least its minima and at most its maxima. -/
structure Averaged (c : Cluster ℝ) (report : Report ℝ) : Prop where
  disk : (report.utilization.get .disk).minimum ≤ (report.utilization.get .disk).average
  potentialOut : report.potentialOut.minimum ≤ report.potentialOut.average ∧
    report.potentialOut.average ≤ report.potentialOut.maximum
  replicas : report.replicas.minimum ≤ report.replicas.average
  leaders : report.leaders.minimum ≤ report.leaders.average
  topics : report.topics.minimum ≤ report.topics.average ∧
    report.topics.average ≤ report.topics.maximum
  allAlive : c.deadBrokers = [] →
    (∀ r, (report.utilization.get r).average ≤ (report.utilization.get r).maximum) ∧
      report.replicas.average ≤ report.replicas.maximum ∧
      report.leaders.average ≤ report.leaders.maximum

theorem aliveBrokers_eq_brokers (h : c.deadBrokers = []) : c.aliveBrokers = c.brokers := by
  refine List.filter_eq_self.mpr fun b hb => ?_
  have hdead := List.filter_eq_nil_iff.mp h b hb
  rwa [Bool.not_eq_true, Bool.not_eq_false'] at hdead

/-- The averages in the report of an accepted cluster against its extremes. -/
theorem measure_averaged (hc : c.Accepted) (h : c.measure k = .ok report) : c.Averaged report := by
  have hmeasured := measured_of_measure h
  have halive := hmeasured.alive
  refine ⟨?_, ?_, ?_, ?_, ?_, fun hdead => ⟨fun r => ?_, ?_, ?_⟩⟩
  · obtain ⟨s, hs, hspread, -⟩ := hmeasured.resource .disk
    rw [hspread]
    exact Exact.minimum_le_average_of_unshared hc halive rfl hs
  · obtain ⟨s, hs, hspread, -⟩ := hmeasured.potential
    rw [hspread]
    exact Exact.average_between_of_summarizePotential halive hs
  · exact Exact.minimum_le_average_of_summarizeCounts halive hmeasured.replicas
  · exact Exact.minimum_le_average_of_summarizeCounts halive hmeasured.leaders
  · exact Exact.average_between_of_summarizeTopics halive hmeasured.topics
  · obtain ⟨s, hs, hspread, -⟩ := hmeasured.resource r
    rw [hspread]
    exact Exact.average_le_maximum_of_allAlive hc halive (aliveBrokers_eq_brokers hdead) hs
  · exact Exact.average_le_maximum_of_summarizeCounts halive (aliveBrokers_eq_brokers hdead)
      hmeasured.replicas
  · exact Exact.average_le_maximum_of_summarizeCounts halive (aliveBrokers_eq_brokers hdead)
      hmeasured.leaders

theorem bereft_accepted : bereft.Accepted := by
  refine ⟨bereft.brokers, 1.0, 1, fun b hb => ?_,
    make_of_ordered (by decide +kernel) ?_ ?_⟩
  · have hdead : (loaded 2 "b" 1).Admitted := loaded_admitted 2 (by decide) (by norm_num)
    rcases (by simpa [bereft] using hb) with rfl | rfl | rfl
    · exact loaded_admitted 0 (by decide) (by norm_num)
    · exact loaded_admitted 1 (by decide) (by norm_num)
    · exact ⟨hdead.capacity, hdead.load, hdead.host⟩
  · simp [bereft, loaded]
  · simp [bereft, loaded, ledPartitions, Broker.leaders]

theorem bereft_measurable : bereft.Measurable := by
  refine measurable_of_capacity_pos bereft_accepted ⟨loaded 0 "a" 1, List.mem_cons_self, rfl⟩
    (fun b hb _ => ?_) ⟨loaded 0 "a" 1, List.mem_cons_self, List.cons_ne_nil _ _⟩
  rcases (by simpa [bereft] using hb) with rfl | rfl | rfl <;> exact capacity_pos_of_eq rfl

theorem bereft_idsWritten : bereft.IdsWritten := idsWritten_of_lt_ten (by simp [bereft, loaded])

/-- The averages of a cluster with a dead broker that is loaded. -/
theorem measure_averaged_bereft : bereft.Accepted ∧
    ∃ report, bereft.measure (uniform 2 1) = .ok report ∧ bereft.Averaged report := by
  obtain ⟨report, hreport⟩ := measure_of_measurable bereft_accepted bereft_measurable
    bereft_idsWritten (uniform 2 1)
  exact ⟨bereft_accepted, report, hreport, measure_averaged bereft_accepted hreport⟩

end Cluster

end ClusterBalance
