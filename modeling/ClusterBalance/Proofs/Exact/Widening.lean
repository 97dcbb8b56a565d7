import ClusterBalance.Proofs.Cluster.Answers
import ClusterBalance.Proofs.Exact.Band
import ClusterBalance.Proofs.Exact.Cluster
import ClusterBalance.Proofs.Report.Independence
import ClusterBalance.Proofs.Report.Measured
import ClusterBalance.Proofs.Statistics.Measurable

/-! Wider constraints, in exact arithmetic. Main statement: under a constraint with greater
percentages and thresholds every broker that counted as balanced still does, and no fewer brokers
are under the outbound threshold. -/

namespace ClusterBalance

namespace Exact

section Band

variable {tolerance fraction : ℝ}

/-- A band around an average lies in the band of every greater percentage, tolerance included. -/
theorem containsWithin_mono {average percentage percentage' : ℝ} (htolerance : 0 ≤ tolerance)
    (htolerance' : tolerance ≤ 1) (haverage : 0 ≤ average) (hpercentage : 0 ≤ percentage)
    (hle : percentage ≤ percentage') (hfraction : 0 ≤ fraction)
    (h : (Band.around average percentage).containsWithin tolerance fraction = true) :
    (Band.around average percentage').containsWithin tolerance fraction = true := by
  have hlarger (x : ℝ) : Scalar.larger 0 x = max 0 x := by
    unfold Scalar.larger
    split
    case isTrue hx => exact (max_eq_right hx.le).symm
    case isFalse hx => exact (max_eq_left (not_lt.mp hx)).symm
  have hlower : 0 ≤ (Band.around average percentage').lower := by
    simp only [Band.around, hlarger]
    exact mul_nonneg haverage (le_max_left _ _)
  have hlowerLe : (Band.around average percentage').lower ≤
      (Band.around average percentage).lower := by
    simp only [Band.around, hlarger]
    exact mul_le_mul_of_nonneg_left (max_le_max_left 0 (sub_le_sub_left hle _)) haverage
  have hupper : 0 ≤ (Band.around average percentage).upper := mul_nonneg haverage hpercentage
  have hupperLe : (Band.around average percentage).upper ≤
      (Band.around average percentage').upper := mul_le_mul_of_nonneg_left hle haverage
  -- both bounds move outwards, and so do the ends of the range that the tolerance makes of them
  rw [containsWithin_iff_range htolerance (hlower.trans hlowerLe) hupper hfraction] at h
  rw [containsWithin_iff_range htolerance hlower (hupper.trans hupperLe) hfraction]
  exact ⟨(mul_le_mul_of_nonneg_left hlowerLe (sub_nonneg.mpr htolerance')).trans h.1,
    h.2.trans hupperLe⟩

theorem contains_mono {average percentage percentage' : ℝ} (haverage : 0 ≤ average)
    (hpercentage : 0 ≤ percentage) (hle : percentage ≤ percentage') (hfraction : 0 ≤ fraction)
    (h : (Band.around average percentage).contains fraction = true) :
    (Band.around average percentage').contains fraction = true := by
  have htolerance : (Scalar.tolerance : ℝ) = 1 / 1000000000 := rfl
  refine containsWithin_mono ?_ ?_ haverage hpercentage hle hfraction h
  · rw [htolerance]
    norm_num
  · rw [htolerance]
    norm_num

end Band

end Exact

theorem acceptsShare_mono {α : Type} [Scalar α] {accepts accepts' : α → Bool} {used capacity : α}
    (hle : accepts (used / capacity) = true → accepts' (used / capacity) = true)
    (h : acceptsShare accepts used capacity = true) :
    acceptsShare accepts' used capacity = true := by
  simp only [acceptsShare, Bool.and_eq_true] at h ⊢
  exact ⟨h.1, hle h.2⟩

namespace Cluster

variable {c : Cluster ℝ} {k k' : Constraint ℝ} {report : Report ℝ}

/-- What becomes of a report under a wider constraint: brokers that counted as balanced still do, so
their number does not decrease, and neither does that of the brokers under the threshold. -/
structure Widened (c : Cluster ℝ) (k k' : Constraint ℝ) (report report' : Report ℝ) : Prop where
  brokers : ∀ r, ∀ b ∈ c.aliveBrokers,
    c.countsAsBalanced k r b = true → c.countsAsBalanced k' r b = true
  counted : ∀ r, report.balanced.get r = c.aliveBrokers.countP (c.countsAsBalanced k r)
  counted' : ∀ r, report'.balanced.get r = c.aliveBrokers.countP (c.countsAsBalanced k' r)
  balanced : ∀ r, report.balanced.get r ≤ report'.balanced.get r
  underThreshold : report.underThreshold ≤ report'.underThreshold

theorem countsAsBalanced_mono (hc : c.Accepted) {r : Resource} {b : Broker ℝ} (hb : b ∈ c.brokers)
    (hpercentage : 0 ≤ k.percentage.get r) (hle : k.percentage.get r ≤ k'.percentage.get r)
    (h : c.countsAsBalanced k r b = true) : c.countsAsBalanced k' r b = true := by
  unfold countsAsBalanced at h ⊢
  cases hfraction : c.usedFraction r with
  | error e =>
    rw [hfraction] at h
    cases h
  | ok average =>
    rw [hfraction] at h
    have haverage : 0 ≤ average := by
      rw [(Exact.divide_eq_ok_iff.mp hfraction).2]
      exact div_nonneg (Exact.clusterLoad_nonneg hc r) (Exact.clusterCapacity_nonneg hc r)
    have hshare : 0 ≤ (c.measured r b).1 / (c.measured r b).2 :=
      div_nonneg (Exact.used_nonneg hc hb r) (Exact.measured_nonneg hc hb r)
    exact acceptsShare_mono (Exact.contains_mono haverage hpercentage hle hshare) h

theorem countsAsUnderThreshold_mono {b : Broker ℝ}
    (hle : k.threshold.get .networkOut ≤ k'.threshold.get .networkOut)
    (h : c.countsAsUnderThreshold k b = true) : c.countsAsUnderThreshold k' b = true := by
  apply acceptsShare_mono _ h
  intro haccepted
  rw [decide_eq_true_iff] at haccepted ⊢
  exact haccepted.trans hle

/-- If an accepted cluster has a report under a constraint whose percentages are not negative, then
it has one under every constraint with greater percentages and thresholds, in which every broker
that counted as balanced still does. -/
theorem measure_widened (hc : c.Accepted) (hpercentage : ∀ r, 0 ≤ k.percentage.get r)
    (hpercentageLe : ∀ r, k.percentage.get r ≤ k'.percentage.get r)
    (hthresholdLe : ∀ r, k.threshold.get r ≤ k'.threshold.get r)
    (h : c.measure k = .ok report) :
    ∃ report', c.measure k' = .ok report' ∧ c.Widened k k' report report' := by
  obtain ⟨report', h'⟩ : ∃ report', c.measure k' = .ok report' := by
    have halike := c.measure_alike k k'
    rw [h] at halike
    generalize c.measure k' = x at halike
    cases halike with
    | given h => exact ⟨_, rfl⟩
  have hmeasured := measured_of_measure h
  have hmeasured' := measured_of_measure h'
  have hcounted (r : Resource) :
      report.balanced.get r = c.aliveBrokers.countP (c.countsAsBalanced k r) := by
    obtain ⟨s, hs, -, hbalanced⟩ := hmeasured.resource r
    rw [hbalanced, balanced_of_summarizeResource hs]
  have hcounted' (r : Resource) :
      report'.balanced.get r = c.aliveBrokers.countP (c.countsAsBalanced k' r) := by
    obtain ⟨s, hs, -, hbalanced⟩ := hmeasured'.resource r
    rw [hbalanced, balanced_of_summarizeResource hs]
  have hbrokers (r : Resource) : ∀ b ∈ c.aliveBrokers,
      c.countsAsBalanced k r b = true → c.countsAsBalanced k' r b = true := fun b hb =>
    countsAsBalanced_mono hc (List.mem_of_mem_filter hb) (hpercentage r) (hpercentageLe r)
  refine ⟨report', h', hbrokers, hcounted, hcounted', fun r => ?_, ?_⟩
  · rw [hcounted, hcounted']
    exact List.countP_mono_left (hbrokers r)
  · obtain ⟨s, hs, -, hunderThreshold⟩ := hmeasured.potential
    obtain ⟨s', hs', -, hunderThreshold'⟩ := hmeasured'.potential
    rw [hunderThreshold, hunderThreshold', underThreshold_of_summarizePotential hs,
      underThreshold_of_summarizePotential hs']
    exact List.countP_mono_left fun b _ => countsAsUnderThreshold_mono (hthresholdLe _)

/-- A broker that uses some of six units of each resource. -/
noncomputable def loaded (id : Nat) (host : LooseText) (load : ℝ) : Broker ℝ where
  id := id
  capacity := PerResource.replicate 6
  replicas := [⟨⟨"t", id, t_ne_empty⟩, true, PerResource.replicate load, false⟩]
  host := host
  rack := ""
  alive := true

/-- Two brokers, the second of which uses five times as much as the first. -/
noncomputable def lopsided : Cluster ℝ where
  brokers := [loaded 0 "a" 1, loaded 1 "b" 5]
  monitoredRatio := 1.0
  windows := 1

theorem loaded_admitted (id : Nat) {host : LooseText} {load : ℝ} (hhost : host ≠ "")
    (hload : 0 ≤ load) : (loaded id host load).Admitted := by
  refine ⟨Exact.negative?_eq_none_iff.mpr fun r => ?_, List.forall_mem_singleton.mpr ?_, hhost⟩
  · simp [loaded, PerResource.replicate]
  · exact Exact.negative?_eq_none_iff.mpr fun r => (PerResource.get_ofFn ..).symm ▸ hload

theorem lopsided_accepted : lopsided.Accepted := by
  refine ⟨lopsided.brokers, 1.0, 1, fun b hb => ?_,
    make_of_ordered (by decide +kernel) ?_ ?_⟩
  · rcases (by simpa [lopsided] using hb) with rfl | rfl
    · exact loaded_admitted 0 (by decide) (by norm_num)
    · exact loaded_admitted 1 (by decide) (by norm_num)
  · simp [lopsided, loaded]
  · simp [lopsided, loaded, ledPartitions, Broker.leaders]

/-- A broker with the capacity of a loaded one has some of every resource. -/
theorem capacity_pos_of_eq {b : Broker ℝ} (h : b.capacity = PerResource.replicate 6)
    (r : Resource) : 0 < b.capacity.get r := by
  have hcapacity : b.capacity.get r = 6 := h ▸ PerResource.get_ofFn ..
  rw [hcapacity]
  norm_num

theorem lopsided_measurable : lopsided.Measurable := by
  refine measurable_of_capacity_pos lopsided_accepted ⟨loaded 0 "a" 1, List.mem_cons_self, rfl⟩
    (fun b hb _ => ?_) ⟨loaded 0 "a" 1, List.mem_cons_self, List.cons_ne_nil _ _⟩
  rcases (by simpa [lopsided] using hb) with rfl | rfl <;> exact capacity_pos_of_eq rfl

theorem lopsided_idsWritten : lopsided.IdsWritten :=
  idsWritten_of_lt_ten (by simp [lopsided, loaded])

/-- The same percentage and the same threshold for every resource. -/
def uniform (percentage threshold : ℝ) : Constraint ℝ where
  percentage := PerResource.replicate percentage
  threshold := PerResource.replicate threshold

theorem uniform_percentage (percentage threshold : ℝ) (r : Resource) :
    (uniform percentage threshold).percentage.get r = percentage :=
  PerResource.get_ofFn ..

theorem uniform_threshold (percentage threshold : ℝ) (r : Resource) :
    (uniform percentage threshold).threshold.get r = threshold :=
  PerResource.get_ofFn ..

/-- The lopsided cluster under a narrow constraint and under one whose band starts at zero. -/
theorem measure_widened_lopsided :
    lopsided.Accepted ∧ (∀ r, 0 ≤ (uniform (5 / 4) (1 / 2)).percentage.get r) ∧
      ∃ report, lopsided.measure (uniform (5 / 4) (1 / 2)) = .ok report ∧
        ∃ report', lopsided.measure (uniform 3 1) = .ok report' ∧
          lopsided.Widened (uniform (5 / 4) (1 / 2)) (uniform 3 1) report report' := by
  have hnonneg (r : Resource) : 0 ≤ (uniform (5 / 4) (1 / 2)).percentage.get r := by
    rw [uniform_percentage]
    norm_num
  have hpercentage (r : Resource) :
      (uniform (5 / 4) (1 / 2)).percentage.get r ≤ (uniform 3 1).percentage.get r := by
    rw [uniform_percentage, uniform_percentage]
    norm_num
  have hthreshold (r : Resource) :
      (uniform (5 / 4) (1 / 2)).threshold.get r ≤ (uniform 3 1).threshold.get r := by
    rw [uniform_threshold, uniform_threshold]
    norm_num
  obtain ⟨report, hreport⟩ := measure_of_measurable lopsided_accepted lopsided_measurable
    lopsided_idsWritten (uniform (5 / 4) (1 / 2))
  exact ⟨lopsided_accepted, hnonneg, report, hreport,
    measure_widened lopsided_accepted hnonneg hpercentage hthreshold hreport⟩

end Cluster

end ClusterBalance
