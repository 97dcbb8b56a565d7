import Mathlib
import ClusterBalance.Proofs.Alike
import ClusterBalance.Proofs.Cluster.Matching
import ClusterBalance.Proofs.Exact.Widening

/-! Other units for loads and for capacities, in exact arithmetic. Main statement: where every load
is multiplied by one positive number and every capacity by another, a cluster that has a report
still has one; in it the uses are multiplied by the number for the loads, and all counts stay the
same, except that the brokers under the outbound threshold are as many as before only if both
numbers are the same. -/

namespace ClusterBalance

section Definitions

variable (x y : ℝ)

/-- A vector with every amount multiplied by one number. -/
noncomputable def LoadVector.scaled (v : LoadVector ℝ) : LoadVector ℝ := v.map (x * ·)

/-- A replica with its load multiplied by one number. -/
noncomputable def Replica.scaled (r : Replica ℝ) : Replica ℝ :=
  { r with load := LoadVector.scaled x r.load }

/-- A broker with the loads of its replicas multiplied by one number and its capacity by
another. -/
noncomputable def Broker.scaled (b : Broker ℝ) : Broker ℝ :=
  { b with
    capacity := LoadVector.scaled y b.capacity
    replicas := b.replicas.map (Replica.scaled x) }

/-- A cluster with all loads multiplied by one number and all capacities by another. -/
noncomputable def Cluster.scaled (c : Cluster ℝ) : Cluster ℝ :=
  { c with brokers := c.brokers.map (Broker.scaled x y) }

/-- Statistics with each of them multiplied by one number. -/
noncomputable def Spread.scaled (s : Spread ℝ ℝ) : Spread ℝ ℝ where
  average := x * s.average
  maximum := x * s.maximum
  minimum := x * s.minimum
  deviation := x * s.deviation

/-- A report with everything that is measured in units of load multiplied by one number. -/
noncomputable def Report.scaled (r : Report ℝ) : Report ℝ :=
  { r with
    utilization := r.utilization.map (Spread.scaled x)
    potentialOut := r.potentialOut.scaled x
    loadMatrix := r.loadMatrix.map (LoadVector.scaled x) }

end Definitions

namespace Exact

variable {x y a b : ℝ}

section Scalars

/-- Nearness is relative, so it does not depend on the unit. -/
theorem near_scaled (hx : 0 < x) (tolerance a b : ℝ) :
    Scalar.near tolerance (x * a) (x * b) = Scalar.near tolerance a b := by
  have hfinite (z : ℝ) : Scalar.isInfinite z = false := rfl
  have hdistance : Scalar.abs (x * b - x * a) = x * Scalar.abs (b - a) := by
    rw [← mul_sub]
    exact (abs_mul x _).trans (congrArg (· * _) (abs_of_pos hx))
  have hwidth (z : ℝ) : Scalar.abs (tolerance * (x * z)) = x * Scalar.abs (tolerance * z) := by
    rw [mul_left_comm]
    exact (abs_mul x _).trans (congrArg (· * _) (abs_of_pos hx))
  rw [Bool.eq_iff_iff]
  simp only [Scalar.near, Scalar.same, hfinite, hdistance, hwidth, Bool.and_eq_true,
    Bool.or_eq_true, decide_eq_true_iff, mul_le_mul_iff_right₀ hx]

theorem larger_scaled (hx : 0 < x) (a b : ℝ) :
    Scalar.larger (x * a) (x * b) = x * Scalar.larger a b := by
  simp only [Scalar.larger, mul_lt_mul_iff_right₀ hx, mul_ite]

theorem smaller_scaled (hx : 0 < x) (a b : ℝ) :
    Scalar.smaller (x * a) (x * b) = x * Scalar.smaller a b := by
  simp only [Scalar.smaller, mul_lt_mul_iff_right₀ hx, mul_ite]

theorem foldl_larger_scaled (hx : 0 < x) (start : ℝ) (uses : List ℝ) :
    (uses.map (x * ·)).foldl Scalar.larger (x * start) = x * uses.foldl Scalar.larger start := by
  rw [List.foldl_map]
  exact List.foldl_hom (x * ·) (larger_scaled hx)

/-- The least use is searched from the largest double, which does not scale; so there have to be
uses that are not above it. -/
theorem foldl_smaller_scaled (hx : 0 < x) {uses : List ℝ} (hne : uses ≠ [])
    (hrange : ∀ u ∈ uses, u ≤ Scalar.largest ∧ x * u ≤ Scalar.largest) :
    (uses.map (x * ·)).foldl Scalar.smaller Scalar.largest =
      x * uses.foldl Scalar.smaller Scalar.largest := by
  have hfirst {u : ℝ} (hu : u ≤ Scalar.largest) : Scalar.smaller Scalar.largest u = u := by
    unfold Scalar.smaller
    split
    case isTrue => rfl
    case isFalse hlt => exact le_antisymm (not_lt.mp hlt) hu
  cases uses with
  | nil => exact absurd rfl hne
  | cons u us =>
    obtain ⟨hu, hu'⟩ := hrange u List.mem_cons_self
    rw [List.map_cons, List.foldl_cons, List.foldl_cons, hfirst hu, hfirst hu', List.foldl_map]
    exact List.foldl_hom (x * ·) (smaller_scaled hx)

theorem around_scaled (x average percentage : ℝ) :
    Band.around (x * average) percentage =
      ⟨x * (Band.around average percentage).lower, x * (Band.around average percentage).upper⟩ := by
  simp only [Band.around, mul_assoc]

theorem containsWithin_scaled (hx : 0 < x) (tolerance fraction : ℝ) (band : Band ℝ) :
    Band.containsWithin tolerance ⟨x * band.lower, x * band.upper⟩ (x * fraction) =
      band.containsWithin tolerance fraction := by
  rw [Bool.eq_iff_iff]
  simp only [Band.containsWithin, near_scaled hx, Bool.and_eq_true, Bool.or_eq_true,
    decide_eq_true_iff, mul_le_mul_iff_right₀ hx]

end Scalars

section Steps

variable {judged : Prop}

/-- The reading of a broker in other units. Whether it is accepted is compared only if that is
judged in the same way. -/
structure ReadsScaled (x : ℝ) (judged : Prop) (reading reading' : BrokerReading ℝ) : Prop where
  used : x * reading.used = reading'.used
  squaredDeviation : x ^ 2 * reading.squaredDeviation = reading'.squaredDeviation
  accepted : judged → reading.accepted = reading'.accepted

theorem divide_scaled (hy : 0 < y) (x : ℝ) (q : Quantity) (a b : ℝ) :
    Alike (fun z z' => x / y * z = z') (divide q a b) (divide q (x * a) (y * b)) := by
  rw [divide_eq, divide_eq]
  by_cases hb : b = 0
  · rw [if_pos hb, if_pos (mul_eq_zero_of_right y hb)]
    exact .refused _
  · rw [if_neg hb, if_neg (mul_ne_zero hy.ne' hb)]
    exact .given (div_mul_div_comm x y a b)

theorem divideByCount_scaled (x : ℝ) (q : Quantity) (a : ℝ) (n : Int) :
    Alike (fun z z' => x * z = z') (divideByCount q a n) (divideByCount q (x * a) n) := by
  rw [divideByCount_eq, divideByCount_eq]
  split
  · exact .refused _
  · exact .given (mul_div_assoc x a n).symm

theorem sqrt?_scaled (hx : 0 < x) (a : ℝ) :
    Alike (fun z z' => x * z = z') (StatsError.lift (Scalar.sqrt? a))
      (StatsError.lift (Scalar.sqrt? (x ^ 2 * a))) := by
  by_cases ha : a < 0
  · have ha' : x ^ 2 * a < 0 := mul_neg_of_pos_of_neg (pow_pos hx 2) ha
    rw [show Scalar.sqrt? a = _ from if_pos ha, show Scalar.sqrt? (x ^ 2 * a) = _ from if_pos ha']
    exact .refused _
  · have ha' : 0 ≤ x ^ 2 * a := mul_nonneg (sq_nonneg x) (not_lt.mp ha)
    rw [sqrt?_of_nonneg (not_lt.mp ha), sqrt?_of_nonneg ha']
    refine .given ?_
    rw [Real.sqrt_mul (sq_nonneg x), Real.sqrt_sq hx.le]

/-- The expected use scales with the use, as its fraction of the capacity does against the
capacity. -/
theorem make_scaled (hy : 0 < y) (q : Quantity) (fraction : ℝ) {accepts accepts' : ℝ → Bool}
    (haccepts : judged → ∀ share, accepts share = accepts' (x / y * share)) (used capacity : ℝ) :
    Alike (ReadsScaled x judged) (BrokerReading.make q fraction accepts used capacity)
      (BrokerReading.make q (x / y * fraction) accepts' (x * used) (y * capacity)) := by
  apply Alike.bind_same
  intro words
  apply (divide_scaled hy x q used capacity).bind
  rintro share _ rfl
  refine .given ⟨rfl, ?_, fun hjudged => haccepts hjudged share⟩
  change x ^ 2 * ((used - fraction * capacity) * (used - fraction * capacity)) =
    (x * used - x / y * fraction * (y * capacity)) * (x * used - x / y * fraction * (y * capacity))
  have hexpected : x / y * fraction * (y * capacity) = x * (fraction * capacity) := by
    field_simp
  rw [hexpected]
  ring

theorem spreadOfReadings_scaled (hx : 0 < x) (total : ℝ) (n : Int)
    {readings readings' : List (BrokerReading ℝ)}
    (h : List.Forall₂ (ReadsScaled x judged) readings readings')
    (hne : readings.map (·.used) ≠ [])
    (hrange : ∀ u ∈ readings.map (·.used), u ≤ Scalar.largest ∧ x * u ≤ Scalar.largest) :
    Alike (fun s s' => s.scaled x = s') (spreadOfReadings total (.count n) readings)
      (spreadOfReadings (x * total) (.count n) readings') := by
  have hused : readings'.map (·.used) = (readings.map (·.used)).map (x * ·) := by
    rw [List.map_map]
    exact (map_eq_of_forall₂ h fun _ _ hr => hr.used).symm
  have hsquares : Scalar.sum (readings'.map (·.squaredDeviation)) =
      x ^ 2 * Scalar.sum (readings.map (·.squaredDeviation)) := by
    rw [sum_eq, sum_eq, ← List.sum_map_mul_left]
    exact congrArg List.sum (map_eq_of_forall₂ h fun _ _ hr => hr.squaredDeviation).symm
  have hmaximum : x * greatestUse readings = greatestUse readings' := by
    rw [greatestUse, greatestUse, hused, ← foldl_larger_scaled hx, mul_zero]
  have hminimum : x * leastUse readings = leastUse readings' := by
    rw [leastUse, leastUse, hused, foldl_smaller_scaled hx hne hrange]
  apply (divideByCount_scaled x _ total n).bind
  rintro average _ rfl
  rw [hsquares]
  apply (divideByCount_scaled (x ^ 2) _ _ n).bind
  rintro meanSquare _ rfl
  apply (sqrt?_scaled hx meanSquare).bind
  rintro deviation _ rfl
  exact .given (by rw [Spread.scaled, hmaximum, hminimum])

theorem numAccepted_scaled (hjudged : judged) {readings readings' : List (BrokerReading ℝ)}
    (h : List.Forall₂ (ReadsScaled x judged) readings readings') :
    numAccepted readings = numAccepted readings' := by
  rw [numAccepted, numAccepted, List.countP_eq_length_filter, List.countP_eq_length_filter]
  exact (filter_forall₂ h fun _ _ hr => hr.accepted hjudged).length_eq

section Summaries

variable {brokers : List (Broker ℝ)} {read read' : Broker ℝ → Except StatsError (BrokerReading ℝ)}
  {quantity : Broker ℝ → Quantity} {used capacity : Broker ℝ → ℝ} {fraction total : ℝ}
  {accepts accepts' : ℝ → Bool} {n : Int}

/-- A summary of the readings of some brokers in other units. What is made of the readings and of
their spread may depend on how many were accepted only if that is judged in the same way. -/
theorem summary_scaled {β γ : Type} {R : β → γ → Prop} {f : List (BrokerReading ℝ) → Spread ℝ ℝ → β}
    {f' : List (BrokerReading ℝ) → Spread ℝ ℝ → γ} (hx : 0 < x) (hy : 0 < y)
    (hread : ∀ b, read b = BrokerReading.make (quantity b) fraction accepts (used b) (capacity b))
    (hread' : ∀ b, read' (b.scaled x y) = BrokerReading.make (quantity b) (x / y * fraction)
      accepts' (x * used b) (y * capacity b))
    (haccepts : judged → ∀ share, accepts share = accepts' (x / y * share))
    (hne : brokers ≠ [])
    (hrange : ∀ b ∈ brokers, used b ≤ Scalar.largest ∧ x * used b ≤ Scalar.largest)
    (hf : ∀ readings readings' spread, (judged → numAccepted readings = numAccepted readings') →
      R (f readings spread) (f' readings' (spread.scaled x))) :
    Alike R
      (brokers.mapM read >>= fun readings =>
        spreadOfReadings total (.count n) readings >>= fun spread => pure (f readings spread))
      ((brokers.map (Broker.scaled x y)).mapM read' >>= fun readings =>
        spreadOfReadings (x * total) (.count n) readings >>= fun spread =>
          pure (f' readings spread)) := by
  have hreadings : Alike (List.Forall₂ (ReadsScaled x judged)) (brokers.mapM read)
      ((brokers.map (Broker.scaled x y)).mapM read') := by
    rw [List.mapM_map]
    refine Alike.mapM fun b _ => ?_
    rw [Function.comp_apply, hread, hread']
    exact make_scaled hy _ fraction haccepts _ _
  apply hreadings.with_results.bind
  rintro readings readings' ⟨hsame, hgiven, -⟩
  have hused : readings.map (·.used) = brokers.map used := by
    rw [funext hread] at hgiven
    exact map_used_of_readings (fun b => (used b, capacity b)) hgiven
  have hspread : Alike (fun s s' => s.scaled x = s') (spreadOfReadings total (.count n) readings)
      (spreadOfReadings (x * total) (.count n) readings') := by
    refine spreadOfReadings_scaled hx total n hsame ?_ ?_ <;> rw [hused]
    · exact List.map_eq_nil_iff.not.mpr hne
    · exact List.forall_mem_map.mpr hrange
  apply hspread.bind
  rintro spread _ rfl
  exact .given (hf _ _ _ fun hjudged => numAccepted_scaled hjudged hsame)

end Summaries

end Steps

section Clusters

variable (x y) (c : Cluster ℝ)

theorem get_scaled (v : LoadVector ℝ) (r : Resource) :
    (LoadVector.scaled x v).get r = x * v.get r :=
  PerResource.get_map ..

theorem sum_scaled (vs : List (LoadVector ℝ)) :
    LoadVector.scaled x (LoadVector.sum vs) = LoadVector.sum (vs.map (LoadVector.scaled x)) := by
  apply PerResource.ext_get
  intro r
  rw [get_scaled, get_sum, get_sum, List.map_map, ← List.sum_map_mul_left]
  exact congrArg List.sum (List.map_congr_left fun v _ => (get_scaled x v r).symm)

theorem broker_scaled_matches (b : Broker ℝ) :
    b.Matches (LoadVector.scaled x) (b.scaled x y) :=
  .of_map rfl rfl fun _ => ⟨rfl, rfl, rfl⟩

theorem scaled_matches : c.Matches (LoadVector.scaled x) (c.scaled x y) :=
  .of_map (broker_scaled_matches x y)

theorem aliveBrokers_scaled :
    (c.scaled x y).aliveBrokers = c.aliveBrokers.map (Broker.scaled x y) :=
  List.filter_map ..

theorem brokerLoad_scaled (b : Broker ℝ) : LoadVector.scaled x b.load = (b.scaled x y).load :=
  (broker_scaled_matches x y b).load (sum_scaled x)

theorem sum_map_scaled {z : ℝ} {f g : Broker ℝ → ℝ} (h : ∀ b, g (b.scaled x y) = z * f b)
    (brokers : List (Broker ℝ)) :
    ((brokers.map (Broker.scaled x y)).map g).sum = z * (brokers.map f).sum := by
  rw [List.map_map, ← List.sum_map_mul_left]
  exact congrArg List.sum (List.map_congr_left fun b _ => h b)

theorem get_load_scaled (r : Resource) (b : Broker ℝ) :
    (b.scaled x y).load.get r = x * b.load.get r := by
  rw [← brokerLoad_scaled, get_scaled]

theorem get_capacity_scaled (r : Resource) (b : Broker ℝ) :
    (b.scaled x y).capacity.get r = y * b.capacity.get r :=
  get_scaled ..

theorem load_scaled (r : Resource) : (c.scaled x y).load.get r = x * c.load.get r := by
  rw [load_eq_sum, load_eq_sum]
  exact sum_map_scaled x y (get_load_scaled x y r) c.brokers

theorem capacity_scaled (r : Resource) :
    (c.scaled x y).capacity.get r = y * c.capacity.get r := by
  rw [capacity_eq_sum, capacity_eq_sum]
  exact sum_map_scaled x y (get_capacity_scaled x y r) c.brokers

theorem measured_scaled (r : Resource) (b : Broker ℝ) :
    (c.scaled x y).measured r (b.scaled x y) =
      (x * (c.measured r b).1, y * (c.measured r b).2) := by
  have hbrokers : (c.scaled x y).brokers.filter (·.host = (b.scaled x y).host) =
      (c.brokers.filter (·.host = b.host)).map (Broker.scaled x y) :=
    List.filter_map ..
  have hload : ((c.scaled x y).hostOf (b.scaled x y)).load r = x * (c.hostOf b).load r := by
    rw [hostLoad_eq_sum, hostLoad_eq_sum, hbrokers]
    exact sum_map_scaled x y (get_load_scaled x y r) _
  have hcapacity : ((c.scaled x y).hostOf (b.scaled x y)).capacity r =
      y * (c.hostOf b).capacity r := by
    rw [hostCapacity_eq_sum, hostCapacity_eq_sum, hbrokers]
    exact sum_map_scaled x y (get_capacity_scaled x y r) _
  unfold Cluster.measured
  split
  · rw [hload, hcapacity]
  · rw [get_load_scaled, get_capacity_scaled]

theorem potentialOut_scaled (b : Broker ℝ) :
    (c.scaled x y).potentialOut (b.scaled x y) = x * c.potentialOut b := by
  rw [Cluster.potentialOut, Cluster.potentialOut, ← get_scaled,
    (scaled_matches x y c).potentialLoad (sum_scaled x) (broker_scaled_matches x y b)]

theorem totalPotentialOut_scaled :
    (c.scaled x y).totalPotentialOut = x * c.totalPotentialOut := by
  rw [Cluster.totalPotentialOut, aliveBrokers_scaled]
  exact sum_map_scaled x y (potentialOut_scaled x y c) c.aliveBrokers

end Clusters

end Exact

namespace Cluster

variable {c : Cluster ℝ} {k : Constraint ℝ} {report : Report ℝ} {x y : ℝ}

/-- Nothing that is measured of an alive broker is above the largest double, where the search for
the least use starts. -/
structure WithinRange (c : Cluster ℝ) : Prop where
  measured : ∀ b ∈ c.aliveBrokers, ∀ r, (c.measured r b).1 ≤ Scalar.largest
  potentialOut : ∀ b ∈ c.aliveBrokers, c.potentialOut b ≤ Scalar.largest

theorem withinRange_scaled_iff : (c.scaled x y).WithinRange ↔ ∀ b ∈ c.aliveBrokers,
    (∀ r, x * (c.measured r b).1 ≤ Scalar.largest) ∧ x * c.potentialOut b ≤ Scalar.largest := by
  have hrange : (c.scaled x y).WithinRange ↔ ∀ b ∈ (c.scaled x y).aliveBrokers,
      (∀ r, ((c.scaled x y).measured r b).1 ≤ Scalar.largest) ∧
        (c.scaled x y).potentialOut b ≤ Scalar.largest :=
    ⟨fun h b hb => ⟨h.measured b hb, h.potentialOut b hb⟩,
      fun h => ⟨fun b hb => (h b hb).1, fun b hb => (h b hb).2⟩⟩
  rw [hrange, Exact.aliveBrokers_scaled, List.forall_mem_map]
  simp only [Exact.measured_scaled, Exact.potentialOut_scaled]

section Summaries

variable (hx : 0 < x) (hy : 0 < y) (hrange : c.WithinRange) (hrange' : (c.scaled x y).WithinRange)
  (halive : c.aliveBrokers ≠ []) (k) (n : Int)

include hx hy hrange hrange' halive

theorem summarizeResource_scaled (r : Resource) :
    Alike (fun s s' => s.spread.scaled x = s'.spread ∧ s.balanced = s'.balanced)
      (c.summarizeResource k r (.count n)) ((c.scaled x y).summarizeResource k r (.count n)) := by
  unfold summarizeResource usedFraction
  rw [Exact.load_scaled, Exact.capacity_scaled, Exact.aliveBrokers_scaled]
  apply (Exact.divide_scaled hy x _ _ _).bind
  rintro average _ rfl
  have hread' (b : Broker ℝ) : (c.scaled x y).utilizationReading r (x / y * average)
      (Band.around (x / y * average) (k.percentage.get r)) (b.scaled x y) =
        BrokerReading.make (.brokerCapacity r b.id) (x / y * average)
          (Band.around (x / y * average) (k.percentage.get r)).contains (x * (c.measured r b).1)
          (y * (c.measured r b).2) := by
    rw [utilizationReading, Exact.measured_scaled]
    rfl
  have hcontains (share : ℝ) : (Band.around average (k.percentage.get r)).contains share =
      (Band.around (x / y * average) (k.percentage.get r)).contains (x / y * share) := by
    rw [Exact.around_scaled]
    exact (Exact.containsWithin_scaled (div_pos hx hy) _ share _).symm
  exact Exact.summary_scaled hx hy (fun _ => rfl) hread' (fun _ : True => hcontains) halive
    (fun b hb => ⟨hrange.measured b hb r, (withinRange_scaled_iff.mp hrange' b hb).1 r⟩)
    fun _ _ _ hbalanced => ⟨rfl, hbalanced trivial⟩

/-- The threshold is a share, so it accepts the same brokers only if shares stay the same. -/
theorem summarizePotential_scaled :
    Alike (fun s s' => s.spread.scaled x = s'.spread ∧
        (x = y → s.underThreshold = s'.underThreshold))
      (c.summarizePotential k (.count n)) ((c.scaled x y).summarizePotential k (.count n)) := by
  unfold summarizePotential
  rw [Exact.totalPotentialOut_scaled, Exact.capacity_scaled, Exact.aliveBrokers_scaled]
  apply (Exact.divide_scaled hy x _ _ _).bind
  rintro average _ rfl
  have hread' (b : Broker ℝ) : (c.scaled x y).potentialReading (x / y * average)
      (k.threshold.get .networkOut) (b.scaled x y) =
        BrokerReading.make (.brokerCapacity .networkOut b.id) (x / y * average)
          (fun share => share ≤ k.threshold.get .networkOut) (x * c.potentialOut b)
          (y * b.capacity.get .networkOut) := by
    rw [potentialReading, Exact.potentialOut_scaled, Exact.get_capacity_scaled]
    rfl
  have haccepts (hsame : x = y) (share : ℝ) : decide (share ≤ k.threshold.get .networkOut) =
      decide (x / y * share ≤ k.threshold.get .networkOut) := by
    rw [hsame, div_self hy.ne', one_mul]
  exact Exact.summary_scaled hx hy (fun _ => rfl) hread' haccepts halive
    (fun b hb => ⟨hrange.potentialOut b hb, (withinRange_scaled_iff.mp hrange' b hb).2⟩)
    fun _ _ _ hunder => ⟨rfl, hunder⟩

end Summaries

section Counts

variable (c) (x y) (numAlive : Divisor ℝ)

theorem map_scaled {β : Type} {count : Broker ℝ → β} (hcount : ∀ b, count (b.scaled x y) = count b)
    (brokers : List (Broker ℝ)) :
    (brokers.map (Broker.scaled x y)).map count = brokers.map count := by
  rw [List.map_map]
  exact List.map_congr_left fun b _ => hcount b

theorem summarizeCounts_scaled {count : Broker ℝ → Nat}
    (hcount : ∀ b, count (b.scaled x y) = count b) :
    (c.scaled x y).summarizeCounts count numAlive = c.summarizeCounts count numAlive := by
  rw [summarizeCounts, summarizeCounts, Exact.aliveBrokers_scaled, map_scaled x y hcount,
    scaled, map_scaled x y hcount]

theorem summarizeTopics_scaled :
    (c.scaled x y).summarizeTopics numAlive = c.summarizeTopics numAlive := by
  have htopic (topic : LooseText) :
      (c.scaled x y).summarizeTopic numAlive topic = c.summarizeTopic numAlive topic := by
    have hcount (b : Broker ℝ) : (b.scaled x y).numReplicasOf topic = b.numReplicasOf topic :=
      ((Exact.broker_scaled_matches x y b).numReplicasOf topic).symm
    rw [summarizeTopic, summarizeTopic, Exact.aliveBrokers_scaled, map_scaled x y hcount,
      scaled, map_scaled x y hcount]
  simp only [summarizeTopics, ← (Exact.scaled_matches x y c).topics, funext htopic]

theorem distribution_scaled : (c.scaled x y).distribution = c.distribution := by
  have hhealing : (c.scaled x y).healing.map (·.2.partition) = c.healing.map (·.2.partition) := by
    simp only [healing, scaled, List.flatMap_map, List.map_flatMap, Broker.scaled, List.filter_map,
      List.map_map]
    rfl
  rw [distribution, distribution, hhealing, ← (Exact.scaled_matches x y c).numReplicas]

end Counts

/-- Where loads are multiplied by one number and capacities by another, the report is that of the
cluster in the new unit of load; brokers are under the outbound threshold as before if the two
numbers are the same. -/
structure Rescaled (x y : ℝ) (report report' : Report ℝ) : Prop where
  figures : { report.scaled x with underThreshold := report'.underThreshold } = report'
  underThreshold : x = y → report.underThreshold = report'.underThreshold

theorem measure_alike_scaled (hx : 0 < x) (hy : 0 < y) (hrange : c.WithinRange)
    (hrange' : (c.scaled x y).WithinRange) (k : Constraint ℝ) :
    Alike (Rescaled x y) (c.measure k) ((c.scaled x y).measure k) := by
  have hlength : (c.scaled x y).aliveBrokers.length = c.aliveBrokers.length := by
    rw [Exact.aliveBrokers_scaled, List.length_map]
  have hbrokers : (c.scaled x y).brokers.length = c.brokers.length := List.length_map ..
  have hmatrix : (c.scaled x y).loadMatrix = c.loadMatrix.map (LoadVector.scaled x) := by
    rw [loadMatrix, loadMatrix, Exact.aliveBrokers_scaled, List.map_map, List.map_map]
    exact List.map_congr_left fun b _ => (Exact.brokerLoad_scaled x y b).symm
  have hreplicas := c.summarizeCounts_scaled x y (.count c.aliveBrokers.length) fun b =>
    (Exact.broker_scaled_matches x y b).numReplicas.symm
  have hleaders := c.summarizeCounts_scaled x y (.count c.aliveBrokers.length) fun b =>
    (Exact.broker_scaled_matches x y b).numLeaders.symm
  simp only [measure, hlength, hbrokers, hmatrix, hreplicas, hleaders, summarizeTopics_scaled,
    distribution_scaled, ← (Exact.scaled_matches x y c).topics]
  by_cases halive : c.aliveBrokers.length = 0
  · rw [if_pos halive, if_pos halive]
    exact .refused _
  rw [if_neg halive, if_neg halive]
  have hne : c.aliveBrokers ≠ [] := fun hnone => halive (congrArg List.length hnone)
  apply (Alike.ofFnM fun r => summarizeResource_scaled k hx hy hrange hrange' hne _ r).bind
  intro summaries summaries' hsummaries
  apply (summarizePotential_scaled k hx hy hrange hrange' hne _).bind
  rintro potential potential' ⟨hpotential, hunderThreshold⟩
  apply Alike.bind_same
  intro replicas
  apply Alike.bind_same
  intro leaders
  apply Alike.bind_same
  intro topics
  have hspreads : (summaries.map (·.spread)).map (Spread.scaled x) =
      summaries'.map (·.spread) := by
    apply PerResource.ext_get
    intro r
    rw [PerResource.get_map, PerResource.get_map, PerResource.get_map, (hsummaries r).1]
  have hbalanced : summaries.map (·.balanced) = summaries'.map (·.balanced) := by
    apply PerResource.ext_get
    intro r
    rw [PerResource.get_map, PerResource.get_map, (hsummaries r).2]
  refine .given ⟨?_, hunderThreshold⟩
  simp only [Report.scaled, hspreads, hbalanced, hpotential]
  rfl

theorem admitted_scaled (hx : 0 ≤ x) (hy : 0 ≤ y) {b : Broker ℝ} (hb : b.Admitted) :
    (b.scaled x y).Admitted := by
  have hnotNegative {z : ℝ} (hz : 0 ≤ z) {v : LoadVector ℝ} (hv : v.negative? = none) :
      (LoadVector.scaled z v).negative? = none := by
    rw [Exact.negative?_eq_none_iff] at hv ⊢
    intro r
    rw [Exact.get_scaled]
    exact mul_nonneg hz (hv r)
  exact ⟨hnotNegative hy hb.capacity,
    List.forall_mem_map.mpr fun r hr => hnotNegative hx (hb.load r hr), hb.host⟩

theorem scaled_accepted (hx : 0 ≤ x) (hy : 0 ≤ y) (hc : c.Accepted) :
    (c.scaled x y).Accepted := by
  refine (Exact.scaled_matches x y c).accepted hc (List.forall_mem_map.mpr fun b hb => ?_)
  exact admitted_scaled hx hy (hc.admitted b hb)

/-- In other units for loads and for capacities an accepted cluster that has a report is accepted
and has a report, which differs from the first by the unit of load. -/
theorem measure_scaled (hc : c.Accepted) (hx : 0 < x) (hy : 0 < y) (hrange : c.WithinRange)
    (hrange' : (c.scaled x y).WithinRange) (h : c.measure k = .ok report) :
    (c.scaled x y).Accepted ∧
      ∃ report', (c.scaled x y).measure k = .ok report' ∧ Rescaled x y report report' :=
  ⟨scaled_accepted hx.le hy.le hc,
    (measure_alike_scaled hx hy hrange hrange' k).exists_of_eq_ok h⟩

theorem cast_le_largest {n : Nat} (hn : n ≤ 2 ^ 53 - 1) : (n : ℝ) ≤ Scalar.largest := by
  have hle (m : Nat) : (n : ℝ) ≤ (Nat.pow 2 53 - 1 : Nat) * (Nat.pow 2 m : Nat) :=
    (Nat.cast_le.mpr hn).trans
      (le_mul_of_one_le_right (Nat.cast_nonneg _) (Nat.one_le_cast.mpr Nat.one_le_two_pow))
  apply hle

theorem lopsided_load (r : Resource) : lopsided.load.get r = 6 := by
  cases r <;> norm_num [Exact.load_eq_sum, lopsided, Broker.load, Exact.get_sum, loaded,
    PerResource.replicate]

theorem lopsided_potentialOut {b : Broker ℝ} (hb : b ∈ lopsided.aliveBrokers) :
    lopsided.potentialOut b ≤ 6 := by
  rcases (by simpa [lopsided, loaded, aliveBrokers] using hb) with rfl | rfl <;>
    norm_num [potentialOut, potentialLoad, leaders, placements, leadershipLoad, lopsided,
      Exact.get_sum, loaded, PerResource.replicate]

/-- The lopsided cluster with its loads doubled, and with its capacities doubled as well. -/
theorem measure_scaled_lopsided : lopsided.Accepted ∧ lopsided.WithinRange ∧
    ∃ report, lopsided.measure (uniform (5 / 3) (1 / 2)) = .ok report ∧
      ∀ y : ℝ, y = 1 ∨ y = 2 → (lopsided.scaled 2 y).WithinRange ∧
        ∃ report', (lopsided.scaled 2 y).measure (uniform (5 / 3) (1 / 2)) = .ok report' ∧
          Rescaled 2 y report report' := by
  have hlargest : (12 : ℝ) ≤ Scalar.largest := by
    exact_mod_cast cast_le_largest (n := 12) (by norm_num)
  have hused {b : Broker ℝ} (hb : b ∈ lopsided.aliveBrokers) (r : Resource) :
      (lopsided.measured r b).1 ≤ 6 :=
    (Exact.used_le_load lopsided_accepted (List.mem_of_mem_filter hb) r).trans_eq (lopsided_load r)
  have hrange : lopsided.WithinRange :=
    ⟨fun b hb r => by linarith [hused hb r], fun b hb => by linarith [lopsided_potentialOut hb]⟩
  obtain ⟨report, hreport⟩ := measure_of_measurable lopsided_accepted lopsided_measurable
    lopsided_idsWritten (uniform (5 / 3) (1 / 2))
  refine ⟨lopsided_accepted, hrange, report, hreport, fun y hy => ?_⟩
  have hy : 0 < y := by
    rcases hy with rfl | rfl <;> norm_num
  have hrange' : (lopsided.scaled 2 y).WithinRange := by
    refine withinRange_scaled_iff.mpr fun b hb => ⟨fun r => ?_, ?_⟩
    · linarith [hused hb r]
    · linarith [lopsided_potentialOut hb]
  exact ⟨hrange',
    (measure_scaled lopsided_accepted (by norm_num) hy hrange hrange' hreport).2⟩

end Cluster

end ClusterBalance
