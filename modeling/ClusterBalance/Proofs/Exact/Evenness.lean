import Mathlib
import ClusterBalance.Proofs.Cluster.Leadership
import ClusterBalance.Proofs.Exact.Averages

/-! When the use of resources does not deviate, in exact arithmetic. Main statement: the deviation
of a resource is zero exactly if every alive broker uses the same share of what it has as the whole
cluster does, and likewise for the potential outbound load; there the dead brokers have capacity but
no load, so that with one of them only a cluster without potential load does not deviate. -/

namespace ClusterBalance

namespace Exact

section Readings

variable {quantity : Quantity} {fraction used capacity total : ℝ} {accepts : ℝ → Bool} {n : Int}
  {brokers : List (Broker ℝ)} {readings : List (BrokerReading ℝ)} {spread : Spread ℝ ℝ}
  {name : Broker ℝ → Quantity}

theorem squaredDeviation_of_make {reading : BrokerReading ℝ}
    (h : BrokerReading.make quantity fraction accepts used capacity = .ok reading) :
    capacity ≠ 0 ∧ reading.squaredDeviation = (used - fraction * capacity) ^ 2 := by
  obtain ⟨share, square, hshare, hsquare, rfl⟩ := parts_of_make h
  cases hsquare
  exact ⟨(divide_eq_ok_iff.mp hshare).1, (sq _).symm⟩

theorem deviation_of_spread (hn : 0 < n)
    (h : spreadOfReadings total (.count n) readings = .ok spread) :
    spread.deviation = Real.sqrt ((readings.map (·.squaredDeviation)).sum / n) := by
  obtain ⟨average, -, h⟩ := bind_eq_ok_iff.mp h
  obtain ⟨meanSquare, hmeanSquare, h⟩ := bind_eq_ok_iff.mp h
  obtain ⟨deviation, hdeviation, h⟩ := bind_eq_ok_iff.mp h
  cases h
  rw [countDivide_eq hn, sum_eq] at hmeanSquare
  cases hmeanSquare
  exact eq_of_sqrt? hdeviation

/-- Readings do not deviate exactly if every broker uses the expected fraction of its capacity. -/
theorem deviation_eq_zero_iff (use : Broker ℝ → ℝ × ℝ) (hn : 0 < n)
    (hreadings : brokers.mapM (fun b =>
      BrokerReading.make (name b) fraction accepts (use b).1 (use b).2) = .ok readings)
    (hspread : spreadOfReadings total (.count n) readings = .ok spread) :
    spread.deviation = 0 ↔ ∀ b ∈ brokers, (use b).1 / (use b).2 = fraction := by
  have hsquares : readings.map (·.squaredDeviation) =
      brokers.map fun b => ((use b).1 - fraction * (use b).2) ^ 2 :=
    map_eq_of_mapM_eq_ok hreadings fun _ _ _ hb => (squaredDeviation_of_make hb).2
  have hcapacity : ∀ b ∈ brokers, (use b).2 ≠ 0 := by
    intro b hb
    obtain ⟨reading, hreading⟩ := exists_mapM_eq_ok_iff.mp ⟨readings, hreadings⟩ b hb
    exact (squaredDeviation_of_make hreading).1
  have hn' : (n : ℝ) ≠ 0 := by exact_mod_cast hn.ne'
  have hsum : 0 ≤ (brokers.map fun b => ((use b).1 - fraction * (use b).2) ^ 2).sum / (n : ℝ) := by
    refine div_nonneg (List.sum_nonneg ?_) (by exact_mod_cast hn.le)
    exact List.forall_mem_map.mpr fun _ _ => sq_nonneg _
  rw [deviation_of_spread hn hspread, hsquares, Real.sqrt_eq_zero hsum, div_eq_zero_iff,
    or_iff_left hn', sum_sq_eq_zero_iff]
  refine forall₂_congr fun b hb => ?_
  rw [sub_eq_zero, div_eq_iff (hcapacity b hb)]

end Readings

section Potential

variable {c : Cluster ℝ}

theorem alive_lt_capacity (hc : c.Accepted) {r : Resource}
    (hdead : ∃ b ∈ c.deadBrokers, 0 < b.capacity.get r) :
    (c.aliveBrokers.map fun b => b.capacity.get r).sum < c.capacity.get r := by
  obtain ⟨b, hb, hpos⟩ := hdead
  have hnonneg : ∀ x ∈ c.deadBrokers.map fun b => b.capacity.get r, 0 ≤ x :=
    List.forall_mem_map.mpr fun b' hb' => capacity_nonneg hc (List.mem_filter.mp hb').1 r
  have hle := List.single_le_sum hnonneg _ (List.mem_map_of_mem hb)
  rw [capacity_eq_sum, Cluster.sum_brokers]
  linarith

/-- If every alive broker has the share of the potential load that its capacity has of the whole,
then a dead broker with capacity leaves a part of that load to nobody. -/
theorem potentialOut_even_iff (hc : c.Accepted) (hwhole : c.capacity.get .networkOut ≠ 0)
    (hown : ∀ b ∈ c.aliveBrokers, b.capacity.get .networkOut ≠ 0)
    (hdead : ∃ b ∈ c.deadBrokers, 0 < b.capacity.get .networkOut) :
    (∀ b ∈ c.aliveBrokers, c.potentialOut b / b.capacity.get .networkOut =
      c.totalPotentialOut / c.capacity.get .networkOut) ↔
        ∀ b ∈ c.aliveBrokers, c.potentialOut b = 0 := by
  have htotal : c.totalPotentialOut = (c.aliveBrokers.map c.potentialOut).sum := rfl
  constructor
  · intro heven
    have hloads : c.aliveBrokers.map c.potentialOut = c.aliveBrokers.map fun b =>
        c.totalPotentialOut / c.capacity.get .networkOut * b.capacity.get .networkOut := by
      refine List.map_congr_left fun b hb => ?_
      rw [← heven b hb, div_mul_cancel₀ _ (hown b hb)]
    have hsum : c.totalPotentialOut = c.totalPotentialOut / c.capacity.get .networkOut *
        (c.aliveBrokers.map fun b => b.capacity.get .networkOut).sum := by
      rw [← List.sum_map_mul_left, ← hloads, htotal]
    -- the load is the same fraction of the capacity of the alive brokers as of a greater one
    have hzero : c.totalPotentialOut / c.capacity.get .networkOut = 0 := by
      have hgap := sub_ne_zero.mpr (alive_lt_capacity hc hdead).ne'
      refine (mul_eq_zero.mp ?_).resolve_right hgap
      rw [mul_sub, ← hsum, div_mul_cancel₀ _ hwhole, sub_self]
    intro b hb
    exact (div_eq_zero_iff.mp ((heven b hb).trans hzero)).resolve_right (hown b hb)
  · intro hnone b hb
    have hsum : c.totalPotentialOut = 0 := by
      rw [htotal]
      exact List.sum_eq_zero (List.forall_mem_map.mpr hnone)
    rw [hnone b hb, hsum, zero_div, zero_div]

end Potential

end Exact

namespace Cluster

variable {c : Cluster ℝ} {k : Constraint ℝ} {report : Report ℝ}

/-- When the deviations of a report are zero. No quotient has the divisor zero. -/
structure Evened (c : Cluster ℝ) (report : Report ℝ) : Prop where
  provided : ∀ r, c.Provides r
  own : ∀ b ∈ c.aliveBrokers, b.capacity.get .networkOut ≠ 0
  resource : ∀ r, (report.utilization.get r).deviation = 0 ↔
    ∀ b ∈ c.aliveBrokers, (c.measured r b).1 / (c.measured r b).2 =
      c.load.get r / c.capacity.get r
  potential : report.potentialOut.deviation = 0 ↔
    ∀ b ∈ c.aliveBrokers, c.potentialOut b / b.capacity.get .networkOut =
      (c.aliveBrokers.map c.potentialOut).sum / c.capacity.get .networkOut
  dead : (∃ b ∈ c.deadBrokers, 0 < b.capacity.get .networkOut) →
    (report.potentialOut.deviation = 0 ↔ ∀ b ∈ c.aliveBrokers, c.potentialOut b = 0)

theorem obstacle?_of_measure (h : c.measure k = .ok report) : c.obstacle? = none := by
  have hfails := Exact.measure_failsFor c k
  cases hobstacle : c.obstacle? with
  | none => rfl
  | some e =>
    rw [hobstacle, h] at hfails
    cases hfails

theorem deviation_eq_zero_iff_of_summarizeResource (halive : c.aliveBrokers ≠ []) {r : Resource}
    {s : ResourceSummary ℝ}
    (h : c.summarizeResource k r (.count c.aliveBrokers.length) = .ok s) :
    s.spread.deviation = 0 ↔ ∀ b ∈ c.aliveBrokers, (c.measured r b).1 / (c.measured r b).2 =
      c.load.get r / c.capacity.get r := by
  obtain ⟨average, readings, haverage, hreadings, hspread, -⟩ := parts_of_summarizeResource h
  rw [← (Exact.divide_eq_ok_iff.mp haverage).2]
  exact Exact.deviation_eq_zero_iff (c.measured r) (Exact.length_pos_int halive) hreadings hspread

theorem deviation_eq_zero_iff_of_summarizePotential (halive : c.aliveBrokers ≠ [])
    {s : PotentialSummary ℝ}
    (h : c.summarizePotential k (.count c.aliveBrokers.length) = .ok s) :
    s.spread.deviation = 0 ↔
      ∀ b ∈ c.aliveBrokers, c.potentialOut b / b.capacity.get .networkOut =
        c.totalPotentialOut / c.capacity.get .networkOut := by
  obtain ⟨average, readings, haverage, hreadings, hspread, -⟩ := parts_of_summarizePotential h
  rw [← (Exact.divide_eq_ok_iff.mp haverage).2]
  exact Exact.deviation_eq_zero_iff (fun b => (c.potentialOut b, b.capacity.get .networkOut))
    (Exact.length_pos_int halive) hreadings hspread

/-- When the deviations in the report of an accepted cluster are zero. -/
theorem measure_evened (hc : c.Accepted) (h : c.measure k = .ok report) : c.Evened report := by
  have hmeasured := measured_of_measure h
  have halive := hmeasured.alive
  obtain ⟨-, hprovides, hown, -⟩ := obstacle?_eq_none_iff.mp (obstacle?_of_measure h)
  have hown' : ∀ b ∈ c.aliveBrokers, b.capacity.get .networkOut ≠ 0 := by
    intro b hb
    obtain ⟨hmem, hb'⟩ := List.mem_filter.mp hb
    exact (hown b hmem hb').2
  obtain ⟨s, hs, hpotential, -⟩ := hmeasured.potential
  have heven := deviation_eq_zero_iff_of_summarizePotential halive hs
  rw [← hpotential] at heven
  refine ⟨hprovides, hown', fun r => ?_, heven, fun hdead => heven.trans ?_⟩
  · obtain ⟨s, hs, hspread, -⟩ := hmeasured.resource r
    rw [hspread]
    exact deviation_eq_zero_iff_of_summarizeResource halive hs
  · exact Exact.potentialOut_even_iff hc (hprovides .networkOut).whole hown' hdead

/-- The two alive brokers and the dead one are equally loaded, so no resource deviates; but the
potential load does. -/
theorem measure_evened_bereft : bereft.Accepted ∧
    ∃ report, bereft.measure (uniform 2 1) = .ok report ∧ bereft.Evened report ∧
      (∀ r, (report.utilization.get r).deviation = 0) ∧ report.potentialOut.deviation ≠ 0 := by
  obtain ⟨report, hreport⟩ := measure_of_measurable bereft_accepted bereft_measurable
    bereft_idsWritten (uniform 2 1)
  have heven := measure_evened bereft_accepted hreport
  refine ⟨bereft_accepted, report, hreport, heven, fun r => ?_, fun hzero => ?_⟩
  · refine (heven.resource r).mpr fun b hb => ?_
    rcases (by simpa [bereft, aliveBrokers, loaded] using hb) with rfl | rfl <;> cases r <;>
      simp [measured, Resource.isShared, Exact.hostLoad_eq_sum, Exact.hostCapacity_eq_sum,
        Exact.load_eq_sum, Exact.capacity_eq_sum, bereft, Broker.load, Exact.get_sum, loaded,
        PerResource.replicate] <;> norm_num
  · obtain ⟨_, _, _, -, hmake⟩ := bereft_accepted
    have hfirst : loaded 0 "a" 1 ∈ bereft.aliveBrokers := List.mem_cons_self
    have hpotential : bereft.potentialLoad (loaded 0 "a" 1) = (loaded 0 "a" 1).load := by
      refine (countsLeaders_of_make hmake).broker _ (List.mem_filter.mp hfirst).1 ?_
      exact List.forall_mem_singleton.mpr (.inl rfl)
    have hdead : ∃ b ∈ bereft.deadBrokers, 0 < b.capacity.get .networkOut :=
      ⟨_, List.mem_singleton.mpr rfl, by norm_num [loaded, PerResource.replicate]⟩
    have hnone := (heven.dead hdead).mp hzero _ hfirst
    rw [potentialOut, hpotential] at hnone
    norm_num [Broker.load, Exact.get_sum, loaded, PerResource.replicate] at hnone

end Cluster

end ClusterBalance
