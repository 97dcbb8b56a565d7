import Mathlib
import ClusterBalance.Proofs.Exact.Averages

/-! Loads and capacities on all levels, in exact arithmetic. Main statement: what the replicas load
is what the brokers, the hosts and the whole cluster load, the matrix of a report and the dead
brokers share it, and the average of a report is that load over the alive brokers; likewise the
capacities of the hosts make up that of the cluster. -/

namespace ClusterBalance

namespace Cluster

section Sums

variable (c : Cluster ℝ) (r : Resource)

/-- What adds up over the brokers of each host adds up over all brokers. -/
theorem sum_hosts (f : Broker ℝ → ℝ) :
    (c.hosts.map fun h => (h.brokers.map f).sum).sum = (c.brokers.map f).sum := by
  rw [← (c.hosts_parted.map f).sum_eq, List.map_flatMap, sum_flatMap]

theorem sum_hosts_load : (c.hosts.map fun h => h.load r).sum = c.load.get r := by
  rw [Exact.load_eq_sum]
  exact c.sum_hosts fun b => b.load.get r

theorem sum_hosts_capacity : (c.hosts.map fun h => h.capacity r).sum = c.capacity.get r := by
  rw [Exact.capacity_eq_sum]
  exact c.sum_hosts fun b => b.capacity.get r

theorem sum_replicas_load :
    (c.replicas.map fun replica => replica.load.get r).sum = c.load.get r := by
  have hbroker (b : Broker ℝ) :
      (b.replicas.map fun replica => replica.load.get r).sum = b.load.get r := by
    rw [Broker.load, Exact.get_sum, List.map_map]
    rfl
  rw [replicas, List.map_flatMap, sum_flatMap, funext hbroker, Exact.load_eq_sum]

/-- The alive brokers, which have the rows of the matrix, and the dead ones share the load. -/
theorem sum_loadMatrix :
    (c.loadMatrix.map (·.get r)).sum + (c.deadBrokers.map fun b => b.load.get r).sum =
      c.load.get r := by
  rw [Exact.load_eq_sum, sum_brokers, loadMatrix, List.map_map]
  rfl

end Sums

variable {c : Cluster ℝ} {k : Constraint ℝ} {report : Report ℝ}

/-- How the loads and capacities of a cluster and of its report fit together. -/
structure Conserved (c : Cluster ℝ) (report : Report ℝ) : Prop where
  rows : report.loadMatrix = c.aliveBrokers.map (·.load)
  ordered : c.aliveBrokers.Pairwise fun a b => a.id < b.id
  matrix : ∀ r, (report.loadMatrix.map (·.get r)).sum +
    (c.deadBrokers.map fun b => b.load.get r).sum = c.load.get r
  replicas : ∀ r, (c.replicas.map fun replica => replica.load.get r).sum = c.load.get r
  hosts : ∀ r, (c.hosts.map fun h => h.load r).sum = c.load.get r
  average : ∀ r, (report.utilization.get r).average * c.aliveBrokers.length = c.load.get r
  capacity : ∀ r, (c.hosts.map fun h => h.capacity r).sum = c.capacity.get r

theorem average_mul_length (h : c.measure k = .ok report) (r : Resource) :
    (report.utilization.get r).average * c.aliveBrokers.length = c.load.get r := by
  have hmeasured := measured_of_measure h
  obtain ⟨s, hs, hspread, -⟩ := hmeasured.resource r
  obtain ⟨_, _, -, -, hs, -⟩ := parts_of_summarizeResource hs
  rw [hspread, Exact.average_of_spread hmeasured.alive hs,
    div_mul_cancel₀ _ (Exact.length_pos_real hmeasured.alive).ne']

/-- No load and no capacity of an accepted cluster is lost or counted twice on the way from its
replicas to its report. -/
theorem measure_conserved (hc : c.Accepted) (h : c.measure k = .ok report) :
    c.Conserved report := by
  have hmatrix := loadMatrix_of_measure h
  refine ⟨hmatrix, hc.pairwise_id.filter _, fun r => ?_, c.sum_replicas_load, c.sum_hosts_load,
    average_mul_length h, c.sum_hosts_capacity⟩
  rw [hmatrix]
  exact c.sum_loadMatrix r

/-- A third of the load of this cluster is on a dead broker, and so not in the matrix. -/
theorem measure_conserved_bereft : bereft.Accepted ∧
    ∃ report, bereft.measure (uniform 2 1) = .ok report ∧ bereft.Conserved report ∧
      report.loadMatrix.length = 2 ∧ bereft.load.get .disk = 3 := by
  obtain ⟨report, hreport⟩ := measure_of_measurable bereft_accepted bereft_measurable
    bereft_idsWritten (uniform 2 1)
  have hconserved := measure_conserved bereft_accepted hreport
  refine ⟨bereft_accepted, report, hreport, hconserved, ?_, ?_⟩
  · rw [hconserved.rows]
    rfl
  · rw [← hconserved.replicas]
    norm_num [replicas, bereft, loaded, PerResource.replicate]

end Cluster

end ClusterBalance
