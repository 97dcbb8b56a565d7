import ClusterBalance.Proofs.Cluster.Counts
import ClusterBalance.Proofs.Report.Parsed
import ClusterBalance.Proofs.Statistics.Balanced
import ClusterBalance.Proofs.Statistics.Finite

/-! Which figures of a report are finite. Main statements: of a cluster whose amounts are numbers,
those of a resource are finite where what they are made of is, be it the total, the uses or the sum
of the squares; those of the replicas are finite as long as the replicas can be counted in a
word. -/

namespace ClusterBalance.Cluster

open Decimal

variable {c : Cluster Float} {b : Broker Float} {k : Constraint Float} {r : Resource} {n : Nat}

section Numbers

/-- A sum of numbers that are not below zero is a number. -/
theorem isNaN_sum {vs : List (LoadVector Float)} (h : ∀ v ∈ vs, NotNegative (v.get r))
    (hnumbers : ∀ v ∈ vs, (v.get r).isNaN = false) : ((LoadVector.sum vs).get r).isNaN = false := by
  -- a partial sum is a number only because it is no negative infinity either
  have hsum := sum_induction (P := fun x => NotNegative x ∧ x.isNaN = false) (r := r)
    ⟨notNegative_zero, isNaN_zero⟩ fun v hv x hx =>
      ⟨notNegative_add hx.1 (h v hv),
        isNaN_add hx.2 (hnumbers v hv) hx.1.unpack_ne (h v hv).unpack_ne⟩
  exact hsum.2

theorem isNaN_load (hc : c.Accepted) (hnumeric : c.IsNumeric) (hb : b ∈ c.brokers) (r : Resource) :
    (b.load.get r).isNaN = false := by
  refine isNaN_sum (List.forall_mem_map.mpr fun replica hreplica => ?_)
    (List.forall_mem_map.mpr fun replica hreplica => (hnumeric b hb).2 replica hreplica r)
  exact notNegative_of_negative? ((hc.admitted b hb).load replica hreplica) r

theorem isNaN_used (hc : c.Accepted) (hnumeric : c.IsNumeric) (hb : b ∈ c.brokers) (r : Resource) :
    (c.measured r b).1.isNaN = false := by
  unfold measured
  split
  · refine isNaN_compensatedSum (List.forall_mem_map.mpr fun a ha => ?_)
      (List.forall_mem_map.mpr fun a ha => ?_)
    · exact notNegative_load hc (List.mem_of_mem_filter ha) r
    · exact isNaN_load hc hnumeric (List.mem_of_mem_filter ha) r
  · exact isNaN_load hc hnumeric hb r

theorem isNaN_potentialOut (hc : c.Accepted) (hnumeric : c.IsNumeric) (hb : b ∈ c.brokers) :
    (c.potentialOut b).isNaN = false := by
  have heach : ∀ replica ∈ b.replicas, (leadershipLoad c.leaders replica).negative? = none ∧
      (leadershipLoad c.leaders replica).IsNumeric := by
    intro replica hreplica
    rcases leadershipLoad_eq c.leaders replica with heq | ⟨x, hx, heq⟩
    · rw [heq]
      exact ⟨(hc.admitted b hb).load replica hreplica, (hnumeric b hb).2 replica hreplica⟩
    · rw [heq]
      obtain ⟨b', hb', hplaced⟩ := List.mem_flatMap.mp (List.mem_of_mem_filter hx)
      obtain ⟨leader, hleader, rfl⟩ := List.mem_map.mp hplaced
      exact ⟨(hc.admitted b' hb').load leader hleader, (hnumeric b' hb').2 leader hleader⟩
  refine isNaN_sum (List.forall_mem_map.mpr fun replica hreplica => ?_)
    (List.forall_mem_map.mpr fun replica hreplica => (heach replica hreplica).2 _)
  exact notNegative_of_negative? (heach replica hreplica).1 _

end Numbers

section Amounts

/-- What the statistics of a resource are made of. -/
def consumption (c : Cluster Float) (r : Resource) : Consumption :=
  ⟨c.load.get r, c.capacity.get r, c.aliveBrokers.map (c.measured r)⟩

/-- What the statistics of the potential outbound load are made of. -/
def potentialConsumption (c : Cluster Float) : Consumption :=
  ⟨c.totalPotentialOut, c.capacity.get .networkOut, c.aliveBrokers.map c.potentialUse⟩

theorem finiteWhere_utilization {s : ResourceSummary Float} (hc : c.Accepted)
    (hnumeric : c.IsNumeric) (h : c.summarizeResource k r (.count n) = .ok s) :
    FiniteWhere (c.consumption r) s.spread := by
  obtain ⟨average, readings, haverage, hreadings, hspread, -⟩ := parts_of_summarizeResource h
  obtain ⟨-, rfl⟩ := divide_eq_ok_iff.mp haverage
  refine finiteWhere_of_readings (c.measured r) hreadings hspread (fun b hb => ?_) fun b hb => ?_
  · exact notNegative_used hc (List.mem_of_mem_filter hb) r
  · exact isNaN_used hc hnumeric (List.mem_of_mem_filter hb) r

theorem finiteWhere_potential {s : PotentialSummary Float} (hc : c.Accepted)
    (hnumeric : c.IsNumeric) (h : c.summarizePotential k (.count n) = .ok s) :
    FiniteWhere c.potentialConsumption s.spread := by
  obtain ⟨average, readings, haverage, hreadings, hspread, -⟩ := parts_of_summarizePotential h
  obtain ⟨-, rfl⟩ := divide_eq_ok_iff.mp haverage
  refine finiteWhere_of_readings c.potentialUse hreadings hspread (fun b hb => ?_) fun b hb => ?_
  · exact notNegative_potentialOut hc (List.mem_of_mem_filter hb)
  · exact isNaN_potentialOut hc hnumeric (List.mem_of_mem_filter hb)

end Amounts

section Counts

variable {count : Broker Float → Nat} {topic : LooseText} {s : Spread Float Nat}

theorem count_le (hcount : ∀ b : Broker Float, count b ≤ b.numReplicas) (hb : b ∈ c.brokers) :
    count b ≤ c.numReplicas := by
  rw [numReplicas, totalCount_eq_sum]
  exact (hcount b).trans (List.le_sum_of_mem (List.mem_map_of_mem hb))

theorem totalCount_le {brokers : List (Broker Float)} (hbrokers : brokers.Sublist c.brokers)
    (hcount : ∀ b : Broker Float, count b ≤ b.numReplicas) :
    totalCount (brokers.map count) ≤ c.numReplicas := by
  rw [numReplicas, totalCount_eq_sum, totalCount_eq_sum]
  calc (brokers.map count).sum ≤ (brokers.map (·.numReplicas)).sum :=
        List.sum_le_sum fun b _ => hcount b
    _ ≤ (c.brokers.map (·.numReplicas)).sum :=
        (hbrokers.map _).sum_le_sum fun _ _ => Nat.zero_le _

theorem isFinite_of_summarizeCounts (hword : c.numReplicas < 2 ^ 64)
    (hcount : ∀ b : Broker Float, count b ≤ b.numReplicas)
    (h : c.summarizeCounts count (.count n) = .ok s) :
    s.average.isFinite = true ∧ s.deviation.isFinite = true := by
  obtain ⟨average, haverage, h⟩ := bind_eq_ok_iff.mp h
  obtain ⟨deviation, hdeviation, h⟩ := bind_eq_ok_iff.mp h
  cases h
  have hupTo := upTo_average ((totalCount_le (.refl _) hcount).trans_lt hword) haverage
  have hcounts : ∀ m ∈ c.aliveBrokers.map count, m < 2 ^ 64 := List.forall_mem_map.mpr fun b hb =>
    (count_le hcount (List.mem_of_mem_filter hb)).trans_lt hword
  exact ⟨hupTo.finite, (upTo_deviation hupTo hcounts hdeviation).finite⟩

theorem upTo_of_summarizeTopic (hword : c.numReplicas < 2 ^ 64)
    (h : c.summarizeTopic (.count n) topic = .ok s) : UpTo 64 s.average ∧ UpTo 92 s.deviation := by
  have hcount (b : Broker Float) := numReplicasOf_le b topic
  have htotal : totalCount (c.aliveBrokers.map (·.numReplicasOf topic)) ≤ c.numReplicas :=
    totalCount_le List.filter_sublist hcount
  obtain ⟨haverage, -, -, hdeviation⟩ := parts_of_summarizeTopic h
  have hupTo := upTo_average (htotal.trans_lt hword) haverage
  have hcounts : ∀ m ∈ c.aliveBrokers.map (·.numReplicasOf topic), m < 2 ^ 64 :=
    List.forall_mem_map.mpr fun b hb =>
      (count_le hcount (List.mem_of_mem_filter hb)).trans_lt hword
  exact ⟨hupTo, upTo_deviation hupTo hcounts hdeviation⟩

theorem isFinite_of_summarizeTopics (hword : c.numReplicas < 2 ^ 64)
    (h : c.summarizeTopics (.count n) = .ok s) :
    s.average.isFinite = true ∧ s.deviation.isFinite = true := by
  obtain ⟨spreads, hspreads, haverage, -, -, hdeviation⟩ := parts_of_summarizeTopics h
  have heach := forall_of_mapM_eq_ok hspreads fun topic _ spread hspread =>
    upTo_of_summarizeTopic hword hspread
  rw [isFinite_of_divideByCount haverage, isFinite_of_divideByCount hdeviation]
  have haverages := upTo_sum (List.forall_mem_map.mpr fun spread hs => (heach spread hs).1)
  have hdeviations := upTo_sum (List.forall_mem_map.mpr fun spread hs => (heach spread hs).2)
  exact ⟨(haverages (by decide)).finite, (hdeviations (by decide)).finite⟩

end Counts

end ClusterBalance.Cluster
