import ClusterBalance.Proofs.Chain
import ClusterBalance.Proofs.Exact.Cluster
import ClusterBalance.Proofs.Report.Measured

/-! The divisors of the statistics, in exact arithmetic: what keeps each step of the computation
from dividing by its own. Main statement: a report is refused for the first of these obstacles and
for nothing else. -/

namespace ClusterBalance

theorem FailsFor.ofFnM {β : Type} {f : Resource → Except StatsError β}
    {obstacle? : Resource → Option StatsError}
    (hf : ∀ r, FailsFor (f r) (obstacle? r)) :
    FailsFor (PerResource.ofFnM f) (Resource.all.findSome? obstacle?) := by
  have hall : Resource.all.findSome? obstacle? = (obstacle? .cpu).or ((obstacle? .networkIn).or
      ((obstacle? .networkOut).or (obstacle? .disk))) := by
    simp only [Resource.all, List.findSome?_cons, List.findSome?_nil]
    cases obstacle? .cpu <;> cases obstacle? .networkIn <;> cases obstacle? .networkOut <;>
      cases obstacle? .disk <;> rfl
  rw [hall]
  refine (hf .cpu).bind fun _ _ _ => (hf .networkIn).bind fun _ _ _ => ?_
  exact (hf .networkOut).bind fun _ _ _ => (hf .disk).bind_none fun _ _ => .ok _

/-- What keeps from dividing by a number: that there are no words for it, or that it is zero. -/
noncomputable def Quantity.obstacle? (q : Quantity) (y : ℝ) : Option StatsError :=
  match StatsError.words q with
  | .error e => some e
  | .ok _ => if y = 0 then some (.degenerate q) else none

theorem Quantity.obstacle?_brokerCapacity (r : Resource) (id : Nat) (y : ℝ) :
    (brokerCapacity r id).obstacle? y =
      if id < Document.digitLimit then
        if y = 0 then some (.degenerate (brokerCapacity r id)) else none
      else some .tooManyDigits := by
  rw [obstacle?, StatsError.words_brokerCapacity]
  by_cases hid : id < Document.digitLimit
  · rw [if_pos hid, if_pos hid]
  · rw [if_neg hid, if_neg hid]

namespace Exact

variable {n : Int}

theorem divide_failsFor (q : Quantity) (x y : ℝ) :
    FailsFor (divide q x y) (if y = 0 then some (.degenerate q) else none) := by
  rw [divide_eq]
  split
  · exact .error _
  · exact .ok _

theorem reading_failsFor (q : Quantity) (fraction : ℝ) (accepts : ℝ → Bool) (used capacity : ℝ) :
    FailsFor (BrokerReading.make q fraction accepts used capacity) (q.obstacle? capacity) := by
  rw [BrokerReading.make, Quantity.obstacle?]
  cases StatsError.words q with
  | error e => exact .error e
  | ok text =>
    refine FailsFor.bind (p := none) (.ok text) fun _ _ _ => ?_
    exact FailsFor.bind_none (divide_failsFor q used capacity) fun _ _ => .ok _

theorem squaredDeviation_nonneg {q : Quantity} {fraction used capacity : ℝ} {accepts : ℝ → Bool}
    {reading : BrokerReading ℝ}
    (h : BrokerReading.make q fraction accepts used capacity = .ok reading) :
    0 ≤ reading.squaredDeviation := by
  obtain ⟨share, square, -, hsquare, rfl⟩ := parts_of_make h
  cases hsquare
  exact mul_self_nonneg _

theorem countDivide_eq (hn : 0 < n) (q : Quantity) (x : ℝ) :
    (Divisor.count n).divide q x = .ok (x / n) := by
  rw [Divisor.divide, divideByCount_eq, if_neg hn.ne']

theorem countDivideCount_eq (hn : 0 < n) (q : Quantity) (m : Int) :
    (Divisor.count n : Divisor ℝ).divideCount q m = .ok ((m : ℝ) / n) := by
  rw [Divisor.divideCount, countRatio_eq, if_neg hn.ne']

/-- The mean square of readings has a root. -/
theorem spreadOfReadings_failsFor (hn : 0 < n) (total : ℝ) {readings : List (BrokerReading ℝ)}
    (h : ∀ reading ∈ readings, 0 ≤ reading.squaredDeviation) :
    FailsFor (spreadOfReadings total (.count n) readings) none := by
  have hsum : 0 ≤ Scalar.sum (readings.map (·.squaredDeviation)) := by
    rw [sum_eq]
    refine List.sum_nonneg fun x hx => ?_
    obtain ⟨reading, hreading, rfl⟩ := List.mem_map.mp hx
    exact h reading hreading
  have hmean : 0 ≤ Scalar.sum (readings.map (·.squaredDeviation)) / (n : ℝ) :=
    div_nonneg hsum (Int.cast_nonneg hn.le)
  simp only [spreadOfReadings, countDivide_eq hn]
  show FailsFor (StatsError.lift (Scalar.sqrt? _) >>= _) none
  rw [sqrt?_of_nonneg hmean]
  exact .ok _

/-- The shares of a deviation of counts sum up to a number that has a root. -/
theorem countDeviation_eq (hn : 0 < n) (average : ℝ) (counts : List Nat) :
    countDeviation average (.count n) counts =
      .ok (Real.sqrt (counts.map fun m : Nat =>
        ((m : ℝ) - average) * ((m : ℝ) - average) / (n : ℝ)).sum) := by
  have hshare (m : Nat) : (do
      let square ← StatsError.lift (Scalar.square? (Scalar.ofNat m - average))
      (Divisor.count n).divide .aliveBrokers square) =
        .ok (((m : ℝ) - average) * ((m : ℝ) - average) / (n : ℝ)) :=
    countDivide_eq hn .aliveBrokers _
  have hnonneg : 0 ≤ (counts.map fun m : Nat =>
      ((m : ℝ) - average) * ((m : ℝ) - average) / (n : ℝ)).sum := by
    refine List.sum_nonneg fun x hx => ?_
    obtain ⟨m, -, rfl⟩ := List.mem_map.mp hx
    exact div_nonneg (mul_self_nonneg _) (Int.cast_nonneg hn.le)
  simp only [countDeviation, hshare]
  rw [← sum_eq] at hnonneg ⊢
  refine (congrArg (· >>= _) List.mapM_pure).trans ?_
  exact congrArg StatsError.lift (sqrt?_of_nonneg hnonneg)

/-- An average of counts and their deviation are always there. -/
theorem averageAndDeviation_failsFor {γ : Type} (hn : 0 < n) (q : Quantity) (m : Int)
    (counts : List Nat) (f : ℝ → ℝ → γ) :
    FailsFor ((Divisor.count n).divideCount q m >>= fun average =>
      countDeviation average (.count n) counts >>= fun deviation => pure (f average deviation))
      none := by
  simp only [countDivideCount_eq hn, countDeviation_eq hn]
  exact .ok _

section Readings

variable {bs : List (Broker ℝ)} {read : Broker ℝ → Except StatsError (BrokerReading ℝ)}
  {quantity : Broker ℝ → Quantity} {capacity used : Broker ℝ → ℝ} {fraction : ℝ}
  {accepts : ℝ → Bool}

theorem readings_failsFor
    (hread : ∀ b, read b = BrokerReading.make (quantity b) fraction accepts (used b) (capacity b)) :
    FailsFor (bs.mapM read) (bs.findSome? fun b => (quantity b).obstacle? (capacity b)) := by
  refine FailsFor.mapM fun b _ => ?_
  rw [hread]
  exact reading_failsFor ..

/-- A summary of readings is refused for the first broker with an obstacle, and for nothing else:
the squares are not negative, so their mean has a root. -/
theorem summary_failsFor {γ : Type} (hn : 0 < n)
    (hread : ∀ b, read b = BrokerReading.make (quantity b) fraction accepts (used b) (capacity b))
    (total : ℝ) (f : List (BrokerReading ℝ) → Spread ℝ ℝ → γ) :
    FailsFor (bs.mapM read >>= fun readings =>
        spreadOfReadings total (.count n) readings >>= fun spread => pure (f readings spread))
      (bs.findSome? fun b => (quantity b).obstacle? (capacity b)) := by
  refine FailsFor.bind_none (readings_failsFor hread) fun readings hreadings => ?_
  have hnonneg : ∀ reading ∈ readings, 0 ≤ reading.squaredDeviation :=
    forall_of_mapM_eq_ok hreadings fun b _ _ hb => squaredDeviation_nonneg (hread b ▸ hb)
  exact FailsFor.bind_none (spreadOfReadings_failsFor hn total hnonneg) fun _ _ => .ok _

end Readings

end Exact

namespace Cluster

variable {c : Cluster ℝ}

/-- What keeps from dividing by the capacities of the alive brokers. -/
noncomputable def capacityObstacle? (c : Cluster ℝ) (r : Resource) (capacity : Broker ℝ → ℝ) :
    Option StatsError :=
  c.aliveBrokers.findSome? fun b => (Quantity.brokerCapacity r b.id).obstacle? (capacity b)

/-- What keeps from summarizing a resource. -/
noncomputable def resourceObstacle? (c : Cluster ℝ) (r : Resource) : Option StatsError :=
  (if c.capacity.get r = 0 then some (.degenerate (.clusterCapacity r)) else none).or
    (c.capacityObstacle? r fun b => (c.measured r b).2)

/-- The first obstacle to the statistics. -/
noncomputable def obstacle? (c : Cluster ℝ) : Option StatsError :=
  if c.aliveBrokers.length = 0 then some (.degenerate .aliveBrokers)
  else
    (Resource.all.findSome? c.resourceObstacle?).or
      ((c.capacityObstacle? .networkOut fun b => b.capacity.get .networkOut).or
        (if c.topics.length = 0 then some (.degenerate .topics) else none))

end Cluster

namespace Exact

variable {c : Cluster ℝ} {n : Int}

theorem summarizeResource_failsFor (hn : 0 < n) (k : Constraint ℝ) (r : Resource) :
    FailsFor (c.summarizeResource k r (.count n)) (c.resourceObstacle? r) := by
  refine FailsFor.bind (divide_failsFor ..) fun _ average _ => ?_
  have hread (band : Band ℝ) (b : Broker ℝ) : c.utilizationReading r average band b =
      BrokerReading.make (.brokerCapacity r b.id) average band.contains (c.measured r b).1
        (c.measured r b).2 := rfl
  exact summary_failsFor hn (hread _) _ _

/-- Where the cluster has outbound capacity, its potential load is refused for a broker only. -/
theorem summarizePotential_failsFor (hn : 0 < n) (k : Constraint ℝ)
    (hcapacity : c.capacity.get .networkOut ≠ 0) :
    FailsFor (c.summarizePotential k (.count n))
      (c.capacityObstacle? .networkOut fun b => b.capacity.get .networkOut) := by
  have haverage := divide_failsFor (.clusterCapacity .networkOut) c.totalPotentialOut
    (c.capacity.get .networkOut)
  rw [if_neg hcapacity] at haverage
  refine FailsFor.bind haverage fun _ average _ => ?_
  have hread (b : Broker ℝ) : c.potentialReading average (k.threshold.get .networkOut) b =
      BrokerReading.make (.brokerCapacity .networkOut b.id) average
        (fun x => x ≤ k.threshold.get .networkOut) (c.potentialOut b)
        (b.capacity.get .networkOut) := rfl
  exact summary_failsFor hn hread _ _

theorem summarizeCounts_failsFor (hn : 0 < n) (count : Broker ℝ → Nat) :
    FailsFor (c.summarizeCounts count (.count n)) none :=
  averageAndDeviation_failsFor hn _ _ _ _

theorem summarizeTopic_failsFor (hn : 0 < n) (topic : LooseText) :
    FailsFor (c.summarizeTopic (.count n) topic) none :=
  averageAndDeviation_failsFor hn _ _ _ _

theorem summarizeTopics_failsFor (hn : 0 < n) :
    FailsFor (c.summarizeTopics (.count n))
      (if c.topics.length = 0 then some (.degenerate .topics) else none) := by
  have hspreads : FailsFor (c.topics.mapM (c.summarizeTopic (.count n))) none := by
    have hnone : (c.topics.findSome? fun _ => (none : Option StatsError)) = none := by simp
    rw [← hnone]
    exact .mapM fun topic _ => summarizeTopic_failsFor hn topic
  have hdivide (x : ℝ) : FailsFor (divideByCount .topics x c.topics.length)
      (if c.topics.length = 0 then some (.degenerate .topics) else none) := by
    simp only [divideByCount_eq, Int.natCast_eq_zero]
    split
    · exact .error _
    · exact .ok _
  by_cases htopics : c.topics.length = 0
  · simp only [if_pos htopics] at hdivide ⊢
    refine hspreads.bind fun _ _ _ => ?_
    exact FailsFor.bind (hdivide _) (q := none) nofun
  · simp only [if_neg htopics] at hdivide ⊢
    refine hspreads.bind fun _ _ _ => ?_
    exact FailsFor.bind_none (hdivide _) fun _ _ => FailsFor.bind_none (hdivide _) fun _ _ => .ok _

/-- A report is refused for the first obstacle and for nothing else. -/
theorem measure_failsFor (c : Cluster ℝ) (k : Constraint ℝ) :
    FailsFor (c.measure k) c.obstacle? := by
  simp only [Cluster.measure, Cluster.obstacle?]
  by_cases halive : c.aliveBrokers.length = 0
  · rw [if_pos halive, if_pos halive]
    exact .error _
  rw [if_neg halive, if_neg halive]
  have hn : (0 : Int) < c.aliveBrokers.length := by omega
  refine FailsFor.bind (.ofFnM fun r => summarizeResource_failsFor hn k r) fun hnone _ _ => ?_
  have hcapacity : c.capacity.get .networkOut ≠ 0 := by
    intro hzero
    have hout := List.findSome?_eq_none_iff.mp hnone .networkOut (Resource.mem_all _)
    simp [Cluster.resourceObstacle?, hzero] at hout
  refine FailsFor.bind (summarizePotential_failsFor hn k hcapacity) fun _ _ _ => ?_
  refine FailsFor.bind (summarizeCounts_failsFor hn _) fun _ _ _ => ?_
  refine FailsFor.bind (summarizeCounts_failsFor hn _) fun _ _ _ => ?_
  exact FailsFor.bind_none (summarizeTopics_failsFor hn) fun _ _ => .ok _

end Exact

end ClusterBalance
