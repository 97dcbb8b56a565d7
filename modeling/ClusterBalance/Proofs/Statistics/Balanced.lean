import ClusterBalance.Constraint
import ClusterBalance.Proofs.Decimal.Zeros
import ClusterBalance.Proofs.Statistics.Extremes

/-! Brokers that use of a resource what the cluster uses on average. The balanced band lies around
the average, but a bound of it is a product that there need not be: zero times an infinite
percentage, or an infinite average times zero. Main statement: such a broker counts as balanced
exactly if there are both bounds, and where nothing uses the resource, all brokers count as balanced
or none does. -/

namespace ClusterBalance

open Decimal Float.Model Float.Model.UnpackedFloat

section Band

variable {average percentage x : Float}

/-- What the average is multiplied by for the lower bound of a band. -/
def lowerFactor (percentage : Float) : Float := Scalar.larger 0 (Scalar.ofNat 2 - percentage)

/-- A factor that scales down, and to zero exactly for a percentage of two or more. -/
structure IsLowerFactor (percentage factor : Float) : Prop where
  finite : factor.isFinite = true
  notNegative : NotNegative factor
  le_one : value factor ≤ 1
  zero_iff : (factor == 0.0) = true ↔ ¬percentage < 2.0

theorem ofNat_two : (Scalar.ofNat 2 : Float) = 2.0 := by decide +kernel

theorem lowerFactor_of_lt (h : 1.0 < percentage) (hlt : percentage < 2.0) :
    IsLowerFactor percentage (lowerFactor percentage) := by
  obtain ⟨hnumber, htwo⟩ := isNaN_of_lt hlt
  have hfinite : percentage.isFinite = true :=
    isFinite_of_place_le (notNegative_of_one_le (le_of_lt_double h)) hnumber isFinite_two
      ((lt_iff_place hnumber htwo).mp hlt).le
  rw [lt_iff_value isFinite_one hfinite, value_one] at h
  have hlt' := hlt
  rw [lt_iff_value hfinite isFinite_two, value_two] at hlt'
  have hrounds := rounds_sub isFinite_two hfinite
  have hplace : place (2.0 - percentage) ≤ place 1.0 := by
    refine place_pack_le (roundsTo_sub (isRounded_of_isFinite isFinite_two)
      (isRounded_of_isFinite hfinite)) isFinite_one ?_
    change value 2.0 - value percentage ≤ _
    rw [value_two, value_one]
    linarith
  rw [value_two] at hrounds
  have hpositive : NotNegative (2.0 - percentage) := hrounds.notNegative (by linarith)
  have hfinite' := isFinite_of_place_le hpositive hrounds.isNaN isFinite_one hplace
  -- the percentage is at least half of two, so the difference is not rounded
  have hvalue : value (2.0 - percentage) = 2 - value percentage := by
    refine (hrounds.nearest hfinite').eq_of_onGrid ?_
    have hgrid := (onGrid_value hfinite).sub_of_le_double (onGrid_value isFinite_two)
    rw [value_two] at hgrid
    exact hgrid (by linarith) (by linarith) (by linarith)
  have hlarger : lowerFactor percentage = 2.0 - percentage := by
    rw [lowerFactor, ofNat_two]
    refine if_pos ((lt_iff_value isFinite_zero hfinite').mpr ?_)
    rw [value_zero, hvalue]
    linarith
  rw [hlarger]
  refine ⟨hfinite', hpositive, by linarith, iff_of_false (fun hzero => ?_) (not_not_intro hlt)⟩
  rw [beq_iff_place hrounds.isNaN isNaN_zero, place_of_isFinite hfinite',
    place_of_isFinite isFinite_zero, value_zero, hvalue] at hzero
  have hzero' : 2 = value percentage := by simpa [sub_eq_zero] using hzero
  linarith

theorem lowerFactor_of_not_lt (h : 1.0 < percentage) (hge : ¬percentage < 2.0) :
    lowerFactor percentage = 0.0 := by
  rw [lowerFactor, ofNat_two]
  refine if_neg fun hpositive => ?_
  have hpositive : place 0.0 < place (2.0 - percentage) :=
    (lt_iff_place isNaN_zero (isNaN_of_lt hpositive).2).mp hpositive
  have hnumber := (isNaN_of_lt h).2
  cases hfinite : percentage.isFinite with
  | true =>
    rw [lt_iff_value hfinite isFinite_two, value_two, not_lt] at hge
    refine absurd hpositive (not_lt.mpr ?_)
    refine place_pack_le (roundsTo_sub (isRounded_of_isFinite isFinite_two)
      (isRounded_of_isFinite hfinite)) isFinite_zero ?_
    change value 2.0 - value percentage ≤ _
    rw [value_two, value_zero]
    linarith
  | false =>
    rw [place_sub_of_isInf isFinite_two (notNegative_of_one_le (le_of_lt_double h))
      (isInf_of_isNaN hnumber hfinite)] at hpositive
    exact absurd hpositive not_lt_bot

theorem isLowerFactor (h : 1.0 < percentage) :
    IsLowerFactor percentage (lowerFactor percentage) := by
  by_cases hlt : percentage < 2.0
  · exact lowerFactor_of_lt h hlt
  · rw [lowerFactor_of_not_lt h hlt]
    have hle : value 0.0 ≤ 1 := by
      rw [value_zero]
      exact zero_le_one
    exact ⟨isFinite_zero, notNegative_zero, hle, iff_of_true zero_beq_zero hlt⟩

/-- The lower bound of a band is there unless an infinite average is multiplied by zero, and is then
not above the average. -/
theorem lower_around (haverage : NotNegative average) (hnumber : average.isNaN = false)
    (h : 1.0 < percentage) :
    ((Band.around average percentage).lower.isNaN = true ↔
      average.isInf = true ∧ ¬percentage < 2.0) ∧
    ((Band.around average percentage).lower.isNaN = false →
      (Band.around average percentage).lower ≤ average) := by
  have hfactor := isLowerFactor h
  have hlower : (Band.around average percentage).lower = average * lowerFactor percentage := rfl
  rw [hlower]
  refine ⟨?_, mul_le_self haverage hfactor.finite hfactor.le_one hnumber⟩
  rw [isNaN_mul hnumber (isNaN_of_isFinite hfactor.finite), isInf_of_isFinite hfactor.finite,
    Bool.and_false, Bool.false_or, Bool.and_eq_true, hfactor.zero_iff]

theorem upper_around (haverage : NotNegative average) (hnumber : average.isNaN = false)
    (h : 1.0 < percentage) :
    ((Band.around average percentage).upper.isNaN = true ↔
      (average == 0.0) = true ∧ percentage.isInf = true) ∧
    ((Band.around average percentage).upper.isNaN = false →
      average ≤ (Band.around average percentage).upper) := by
  have hupper : (Band.around average percentage).upper = average * percentage := rfl
  have hzero : (percentage == 0.0) = false := by
    obtain ⟨hone, hpercentage⟩ := isNaN_of_lt h
    have hlt : place 1.0 < place percentage := (lt_iff_place hone hpercentage).mp h
    rw [← Bool.not_eq_true, beq_iff_place hpercentage isNaN_zero]
    exact (place_zero_lt_one.trans hlt).ne'
  rw [hupper]
  refine ⟨?_, self_le_mul haverage (le_of_lt_double h) hnumber⟩
  rw [isNaN_mul hnumber (isNaN_of_lt h).2, hzero, Bool.and_false, Bool.or_false, Bool.and_eq_true]

/-- Nothing is near to what is no number. -/
theorem isNaN_of_near {tolerance : Float} (h : Scalar.near tolerance x average = true) :
    average.isNaN = false := by
  simp only [Scalar.near, Scalar.same, Bool.or_eq_true, Bool.and_eq_true,
    decide_eq_true_iff] at h
  rcases h with h | ⟨-, h⟩
  · exact isNaN_of_le h.1
  · have hdistance : (average - x).abs.isNaN = false := h.elim isNaN_left_of_le isNaN_left_of_le
    rw [← Bool.not_eq_true] at hdistance ⊢
    exact fun hnone => hdistance (isNaN_abs_of_isNaN (isNaN_sub_of_isNaN hnone))

/-- A band that contains a fraction has both bounds. -/
theorem isNaN_of_contains {band : Band Float} (h : band.contains x = true) :
    band.lower.isNaN = false ∧ band.upper.isNaN = false := by
  simp only [Band.contains, Band.containsWithin, Bool.and_eq_true, Bool.or_eq_true,
    decide_eq_true_iff] at h
  exact ⟨h.1.elim isNaN_left_of_le isNaN_of_near, h.2.elim isNaN_of_le isNaN_of_near⟩

/-- The average lies in every band around it that has both bounds. -/
theorem contains_around_iff (haverage : NotNegative average) (h : 1.0 < percentage)
    (hx : (x == average) = true) :
    (Band.around average percentage).contains x = true ↔
      (Band.around average percentage).lower.isNaN = false ∧
        (Band.around average percentage).upper.isNaN = false := by
  obtain ⟨hx', hnumber⟩ := isNaN_of_beq hx
  have hplace := (beq_iff_place hx' hnumber).mp hx
  refine ⟨isNaN_of_contains, fun ⟨hlower, hupper⟩ => ?_⟩
  have hlow := (lower_around haverage hnumber h).2 hlower
  have hhigh := (upper_around haverage hnumber h).2 hupper
  rw [le_iff_place hlower hnumber, ← hplace, ← le_iff_place hlower hx'] at hlow
  rw [le_iff_place hnumber hupper, ← hplace, ← le_iff_place hx' hupper] at hhigh
  simp only [Band.contains, Band.containsWithin, Bool.and_eq_true, Bool.or_eq_true,
    decide_eq_true_iff]
  exact ⟨.inl hlow, .inl hhigh⟩

end Band

section Summary

variable {quantity : Quantity} {x y z : Float}

theorem isZero_eq (x : Float) : Scalar.isZero x = (x == 0.0) := by
  rw [Bool.eq_iff_iff, Scalar.isZero, Scalar.same, Bool.and_eq_true, decide_eq_true_iff,
    decide_eq_true_iff]
  change x ≤ 0.0 ∧ 0.0 ≤ x ↔ _
  constructor
  · rintro ⟨hle, hge⟩
    have hnumber := isNaN_of_le hge
    rw [le_iff_place hnumber isNaN_zero] at hle
    rw [le_iff_place isNaN_zero hnumber] at hge
    exact (beq_iff_place hnumber isNaN_zero).mpr (le_antisymm hle hge)
  · intro heq
    have hnumber := (isNaN_of_beq heq).1
    rw [le_iff_place hnumber isNaN_zero, le_iff_place isNaN_zero hnumber,
      (beq_iff_place hnumber isNaN_zero).mp heq]
    exact ⟨le_rfl, le_rfl⟩

theorem divide_eq_ok_iff : divide quantity x y = .ok z ↔ (y == 0.0) = false ∧ z = x / y := by
  rw [divide, isZero_eq]
  cases (y == 0.0) with
  | true => exact iff_of_false nofun nofun
  | false =>
    rw [if_neg Bool.false_ne_true, Except.ok.injEq, eq_comm (b := z)]
    exact (and_iff_right rfl).symm

/-- Zeros compare as equal, whatever their signs. -/
theorem beq_of_zero (hx : (x == 0.0) = true) (hy : (y == 0.0) = true) : (x == y) = true := by
  have hx' := (isNaN_of_beq hx).1
  have hy' := (isNaN_of_beq hy).1
  rw [beq_iff_place hx' hy', (beq_iff_place hx' isNaN_zero).mp hx,
    (beq_iff_place hy' isNaN_zero).mp hy]

end Summary

theorem Constraint.one_lt_percentage {percentage threshold : PerResource Float}
    {k : Constraint Float} (h : Constraint.make percentage threshold = .ok k) (r : Resource) :
    1.0 < k.percentage.get r := by
  unfold Constraint.make at h
  split at h
  · cases h
  next hpercentage =>
    have hr := List.find?_eq_none.mp hpercentage r (Resource.mem_all r)
    split at h
    · cases h
    · cases h
      rw [Bool.not_eq_true', Bool.not_eq_false] at hr
      exact of_decide_eq_true hr

namespace Cluster

variable {c : Cluster Float} {k : Constraint Float} {r : Resource} {b : Broker Float}
  {numAlive : Divisor Float} {s : ResourceSummary Float}

section NotNegative

theorem notNegative_capacity (hc : c.Accepted) (hb : b ∈ c.brokers) (r : Resource) :
    NotNegative (b.capacity.get r) :=
  notNegative_of_negative? (hc.admitted b hb).capacity r

theorem notNegative_clusterCapacity (hc : c.Accepted) (r : Resource) :
    NotNegative (c.capacity.get r) :=
  notNegative_sum (List.forall_mem_map.mpr fun _ hb => notNegative_capacity hc hb r)

theorem notNegative_clusterLoad (hc : c.Accepted) (r : Resource) : NotNegative (c.load.get r) :=
  notNegative_sum (List.forall_mem_map.mpr fun _ hb => notNegative_load hc hb r)

end NotNegative

section Idle

theorem load_zero (h : ∀ replica ∈ b.replicas, (replica.load.get r == 0.0) = true) :
    (b.load.get r == 0.0) = true :=
  sum_zero (List.forall_mem_map.mpr h)

theorem clusterLoad_zero (h : ∀ b ∈ c.brokers, (b.load.get r == 0.0) = true) :
    (c.load.get r == 0.0) = true :=
  sum_zero (List.forall_mem_map.mpr h)

theorem used_zero (hb : b ∈ c.brokers) (h : ∀ b ∈ c.brokers, (b.load.get r == 0.0) = true) :
    ((c.measured r b).1 == 0.0) = true := by
  unfold measured
  split
  · exact compensatedSum_zero (List.forall_mem_map.mpr fun a ha => h a (List.mem_filter.mp ha).1)
  · exact h b hb

/-- If the capacity of a cluster is a number, then so is what is measured of each broker. -/
theorem isNaN_measured (hc : c.Accepted) (hb : b ∈ c.brokers)
    (h : (c.capacity.get r).isNaN = false) : (c.measured r b).2.isNaN = false := by
  have hnumbers := List.forall_mem_map.mp (isNaN_of_isNaN_sum h)
  unfold measured
  split
  · refine isNaN_compensatedSum (List.forall_mem_map.mpr fun a ha => ?_)
      (List.forall_mem_map.mpr fun a ha => ?_)
    · exact notNegative_capacity hc (List.mem_filter.mp ha).1 r
    · exact hnumbers a (List.mem_filter.mp ha).1
  · exact hnumbers b hb

end Idle

/-- A broker of a summary has a capacity, and counts as balanced if the band contains its share. -/
theorem countsAsBalanced_eq (h : c.summarizeResource k r numAlive = .ok s)
    (hb : b ∈ c.aliveBrokers) : ((c.measured r b).2 == 0.0) = false ∧
      c.countsAsBalanced k r b = s.band.contains ((c.measured r b).1 / (c.measured r b).2) := by
  obtain ⟨average, readings, -, hreadings, -, -⟩ := parts_of_summarizeResource h
  obtain ⟨reading, hreading⟩ := exists_mapM_eq_ok_iff.mp ⟨readings, hreadings⟩ b hb
  have hmake : BrokerReading.make (.brokerCapacity r b.id) average
      (Band.around average (k.percentage.get r)).contains (c.measured r b).1 (c.measured r b).2 =
        .ok reading := hreading
  obtain ⟨-, share, hshare, -⟩ := reading_of_make hmake
  obtain ⟨hcapacity, -⟩ := divide_eq_ok_iff.mp hshare
  obtain ⟨hfraction, hband⟩ := band_of_summarizeResource h
  refine ⟨hcapacity, ?_⟩
  rw [countsAsBalanced, hfraction, hband]
  simp only [acceptsShare, isZero_eq, hcapacity, Bool.not_false, Bool.true_and]

/-- How many brokers of a summary count as balanced: of those that use what the cluster uses on
average, and where nothing uses the resource. -/
structure AtAverage (c : Cluster Float) (k : Constraint Float) (r : Resource)
    (s : ResourceSummary Float) : Prop where
  counted : s.balanced = c.aliveBrokers.countP (c.countsAsBalanced k r)
  lower : s.averageFraction.isNaN = false →
    (s.band.lower.isNaN = true ↔
      s.averageFraction.isInf = true ∧ ¬k.percentage.get r < 2.0)
  upper : s.averageFraction.isNaN = false →
    (s.band.upper.isNaN = true ↔
      (s.averageFraction == 0.0) = true ∧ (k.percentage.get r).isInf = true)
  atAverage : ∀ b ∈ c.aliveBrokers,
    ((c.measured r b).1 / (c.measured r b).2 == s.averageFraction) = true →
      (c.countsAsBalanced k r b = true ↔ s.band.lower.isNaN = false ∧ s.band.upper.isNaN = false)
  idle : (∀ b ∈ c.brokers, ∀ replica ∈ b.replicas, (replica.load.get r == 0.0) = true) →
    s.balanced = if (c.capacity.get r).isNaN = true ∨ (k.percentage.get r).isInf = true then 0
      else c.aliveBrokers.length

theorem averageFraction_eq (h : c.summarizeResource k r numAlive = .ok s) :
    (c.capacity.get r == 0.0) = false ∧ s.averageFraction = c.load.get r / c.capacity.get r :=
  divide_eq_ok_iff.mp (band_of_summarizeResource h).1

theorem notNegative_averageFraction (hc : c.Accepted)
    (h : c.summarizeResource k r numAlive = .ok s) : NotNegative s.averageFraction := by
  obtain ⟨hcapacity, haverage⟩ := averageFraction_eq h
  rw [haverage]
  exact notNegative_div (notNegative_clusterLoad hc r) (notNegative_clusterCapacity hc r) hcapacity

theorem countsAsBalanced_at_average (hc : c.Accepted) (hpercentage : 1.0 < k.percentage.get r)
    (h : c.summarizeResource k r numAlive = .ok s) (hb : b ∈ c.aliveBrokers)
    (hshare : ((c.measured r b).1 / (c.measured r b).2 == s.averageFraction) = true) :
    c.countsAsBalanced k r b = true ↔
      s.band.lower.isNaN = false ∧ s.band.upper.isNaN = false := by
  rw [(countsAsBalanced_eq h hb).2, (band_of_summarizeResource h).2]
  exact contains_around_iff (notNegative_averageFraction hc h) hpercentage hshare

/-- Where nothing uses a resource, every broker uses what the cluster uses on average, which is
nothing: all of them count as balanced, unless the capacity or a bound is no number. -/
theorem balanced_of_idle (hc : c.Accepted) (hpercentage : 1.0 < k.percentage.get r)
    (h : c.summarizeResource k r numAlive = .ok s)
    (hidle : ∀ b ∈ c.brokers, ∀ replica ∈ b.replicas, (replica.load.get r == 0.0) = true) :
    s.balanced = if (c.capacity.get r).isNaN = true ∨ (k.percentage.get r).isInf = true then 0
      else c.aliveBrokers.length := by
  have hload : ∀ b ∈ c.brokers, (b.load.get r == 0.0) = true := fun b hb => load_zero (hidle b hb)
  have hnonneg := notNegative_averageFraction hc h
  obtain ⟨hcapacity, haverage⟩ := averageFraction_eq h
  have hband := (band_of_summarizeResource h).2
  rw [balanced_of_summarizeResource h]
  cases hnumber : (c.capacity.get r).isNaN with
  | true =>
    have hnone : s.band.lower.isNaN = true := by
      rw [hband]
      refine isNaN_mul_of_isNaN ?_
      rw [haverage]
      exact isNaN_div_of_isNaN hnumber
    rw [if_pos (.inl rfl), List.countP_eq_zero]
    intro b hb hcounts
    rw [(countsAsBalanced_eq h hb).2] at hcounts
    exact Bool.false_ne_true ((isNaN_of_contains hcounts).1.symm.trans hnone)
  | false =>
    have hzero : (s.averageFraction == 0.0) = true := by
      rw [haverage]
      exact zero_div (clusterLoad_zero hload) hcapacity hnumber
    have hfinite : s.averageFraction.isNaN = false := (isNaN_of_beq hzero).1
    have hshare (b : Broker Float) (hb : b ∈ c.aliveBrokers) :
        ((c.measured r b).1 / (c.measured r b).2 == s.averageFraction) = true := by
      have hmem := List.mem_of_mem_filter hb
      exact beq_of_zero (zero_div (used_zero hmem hload) (countsAsBalanced_eq h hb).1
        (isNaN_measured hc hmem hnumber)) hzero
    have hcounts (b : Broker Float) (hb : b ∈ c.aliveBrokers) :
        c.countsAsBalanced k r b = true ↔ ¬(k.percentage.get r).isInf = true := by
      rw [countsAsBalanced_at_average hc hpercentage h hb (hshare b hb), hband,
        ← Bool.not_eq_true, ← Bool.not_eq_true, (lower_around hnonneg hfinite hpercentage).1,
        (upper_around hnonneg hfinite hpercentage).1, isInf_of_zero hzero, hzero]
      simp
    by_cases hinfinite : (k.percentage.get r).isInf = true
    · rw [if_pos (.inr hinfinite), List.countP_eq_zero]
      exact fun b hb => (hcounts b hb).not.mpr (not_not_intro hinfinite)
    · rw [if_neg (by simp [hinfinite]), List.countP_eq_length]
      exact fun b hb => (hcounts b hb).mpr hinfinite

/-- A broker that uses of a resource what the cluster uses on average counts as balanced exactly if
the band has both bounds. It lacks the lower one exactly for an infinite average and a percentage of
two or more, and the upper one exactly for an average of zero and an infinite percentage. -/
theorem summarizeResource_atAverage {percentage threshold : PerResource Float} (hc : c.Accepted)
    (hk : Constraint.make percentage threshold = .ok k)
    (h : c.summarizeResource k r numAlive = .ok s) : c.AtAverage k r s := by
  have hpercentage := Constraint.one_lt_percentage hk r
  have hnonneg := notNegative_averageFraction hc h
  have hband := (band_of_summarizeResource h).2
  refine ⟨balanced_of_summarizeResource h, fun hnumber => ?_, fun hnumber => ?_,
    fun b hb hshare => countsAsBalanced_at_average hc hpercentage h hb hshare,
    balanced_of_idle hc hpercentage h⟩
  · rw [hband]
    exact (lower_around hnonneg hnumber hpercentage).1
  · rw [hband]
    exact (upper_around hnonneg hnumber hpercentage).1

/-- A cluster of one broker without replicas. -/
def unused : Cluster Float where
  brokers :=
    [ { id := 0, capacity := PerResource.replicate 1.0, host := "a", rack := "", alive := true
        replicas := [] } ]
  monitoredRatio := 1.0
  windows := 1

/-- The constraint with infinite percentages. -/
def boundless : Constraint Float where
  percentage := PerResource.replicate (ofMagnitude false infinityBits)
  threshold := PerResource.replicate 1.0

/-- Under an infinite percentage no broker of an unused cluster counts as balanced, as the band has
no upper bound. -/
theorem summarizeResource_atAverage_unused :
    unused.Accepted ∧
      Constraint.make boundless.percentage boundless.threshold = .ok boundless ∧
      ∃ s, unused.summarizeResource boundless .cpu (.count 1) = .ok s ∧
        unused.AtAverage boundless .cpu s ∧ unused.aliveBrokers.length = 1 ∧ s.balanced = 0 := by
  have haccepted : unused.Accepted := by
    refine ⟨unused.brokers, 1.0, 1, ?_, make_eq_ok_iff.mpr ?_⟩
    · exact List.forall_mem_singleton.mpr ⟨by decide +kernel, nofun, by decide⟩
    · have hsorted : inOrder unused.brokers = unused.brokers := List.mergeSort_singleton _
      exact ⟨by decide +kernel, by decide, by decide, by decide, by rw [hsorted]; rfl⟩
  have hmake : Constraint.make boundless.percentage boundless.threshold = .ok boundless := by
    have hpercentages : (Resource.all.find? fun r =>
        !Constraint.admitsPercentage (boundless.percentage.get r)) = none := by decide +kernel
    have hthresholds : (Resource.all.find? fun r =>
        !Constraint.admitsThreshold (boundless.threshold.get r)) = none := by decide +kernel
    rw [Constraint.make, hpercentages, hthresholds]
  obtain ⟨s, hs⟩ : ∃ s, unused.summarizeResource boundless .cpu (.count 1) = .ok s :=
    exists_eq_ok_of_isOk (by decide +kernel)
  have hatAverage := summarizeResource_atAverage haccepted hmake hs
  refine ⟨haccepted, hmake, s, hs, hatAverage, rfl, ?_⟩
  have hinfinite : (boundless.percentage.get .cpu).isInf = true := by decide +kernel
  rw [hatAverage.idle (List.forall_mem_singleton.mpr nofun), if_pos (.inr hinfinite)]

end Cluster

end ClusterBalance
