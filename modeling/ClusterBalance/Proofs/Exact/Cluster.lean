import Mathlib.Algebra.Order.BigOperators.Group.List
import ClusterBalance.Proofs.Cluster.Admission
import ClusterBalance.Proofs.Exact.Scalar

/-! Clusters in exact arithmetic: their totals are sums over the brokers. Main statements: what is
measured of a broker has no more capacity than the whole cluster, and no amount of an accepted
cluster is below zero. -/

namespace ClusterBalance.Exact

variable {c : Cluster ℝ}

theorem capacity_eq_sum (c : Cluster ℝ) (r : Resource) :
    c.capacity.get r = (c.brokers.map fun b => b.capacity.get r).sum := by
  rw [Cluster.capacity, get_sum, List.map_map]
  rfl

theorem load_eq_sum (c : Cluster ℝ) (r : Resource) :
    c.load.get r = (c.brokers.map fun b => b.load.get r).sum := by
  rw [Cluster.load, get_sum, List.map_map]
  rfl

theorem hostLoad_eq_sum (c : Cluster ℝ) (b : Broker ℝ) (r : Resource) :
    (c.hostOf b).load r =
      ((c.brokers.filter (·.host = b.host)).map fun b => b.load.get r).sum := rfl

theorem hostCapacity_eq_sum (c : Cluster ℝ) (b : Broker ℝ) (r : Resource) :
    (c.hostOf b).capacity r =
      ((c.brokers.filter (·.host = b.host)).map fun b => b.capacity.get r).sum := rfl

section Sums

variable {f : Broker ℝ → ℝ} {b : Broker ℝ}

theorem le_sum_brokers (hf : ∀ b ∈ c.brokers, 0 ≤ f b) (hb : b ∈ c.brokers) :
    f b ≤ (c.brokers.map f).sum :=
  List.single_le_sum (List.forall_mem_map.mpr hf) _ (List.mem_map_of_mem hb)

/-- A broker is one of those on its host. -/
theorem le_sum_host (hf : ∀ b ∈ c.brokers, 0 ≤ f b) (hb : b ∈ c.brokers) :
    f b ≤ ((c.brokers.filter (·.host = b.host)).map f).sum := by
  refine List.single_le_sum (List.forall_mem_map.mpr fun b' hb' => ?_) _ ?_
  · exact hf b' (List.mem_filter.mp hb').1
  · exact List.mem_map_of_mem (List.mem_filter.mpr ⟨hb, decide_eq_true rfl⟩)

/-- The brokers on a host are some of all. -/
theorem sum_host_le (hf : ∀ b ∈ c.brokers, 0 ≤ f b) (name : LooseText) :
    ((c.brokers.filter (·.host = name)).map f).sum ≤ (c.brokers.map f).sum :=
  (List.filter_sublist.map _).sum_le_sum (List.forall_mem_map.mpr hf)

end Sums

theorem capacity_nonneg (hc : c.Accepted) {b : Broker ℝ} (hb : b ∈ c.brokers) (r : Resource) :
    0 ≤ b.capacity.get r :=
  negative?_eq_none_iff.mp (hc.admitted b hb).capacity r

theorem hostCapacity_nonneg (hc : c.Accepted) (b : Broker ℝ) (r : Resource) :
    0 ≤ (c.hostOf b).capacity r := by
  rw [hostCapacity_eq_sum]
  refine List.sum_nonneg fun x hx => ?_
  obtain ⟨b', hb', rfl⟩ := List.mem_map.mp hx
  exact capacity_nonneg hc (List.mem_filter.mp hb').1 r

/-- What is measured of a broker has a capacity that is not negative. -/
theorem measured_nonneg (hc : c.Accepted) {b : Broker ℝ} (hb : b ∈ c.brokers) (r : Resource) :
    0 ≤ (c.measured r b).2 := by
  unfold Cluster.measured
  split
  · exact hostCapacity_nonneg hc b r
  · exact capacity_nonneg hc hb r

theorem load_nonneg (hc : c.Accepted) {b : Broker ℝ} (hb : b ∈ c.brokers) (r : Resource) :
    0 ≤ b.load.get r := by
  rw [Broker.load, get_sum]
  refine List.sum_nonneg fun x hx => ?_
  obtain ⟨v, hv, rfl⟩ := List.mem_map.mp hx
  obtain ⟨replica, hreplica, rfl⟩ := List.mem_map.mp hv
  exact negative?_eq_none_iff.mp ((hc.admitted b hb).load replica hreplica) r

/-- What a broker is measured to use is not below zero. -/
theorem used_nonneg (hc : c.Accepted) {b : Broker ℝ} (hb : b ∈ c.brokers) (r : Resource) :
    0 ≤ (c.measured r b).1 := by
  unfold Cluster.measured
  split
  · refine List.sum_nonneg fun x hx => ?_
    obtain ⟨b', hb', rfl⟩ := List.mem_map.mp hx
    exact load_nonneg hc (List.mem_filter.mp hb').1 r
  · exact load_nonneg hc hb r

/-- What a broker loads itself is part of what is measured of it. -/
theorem load_le_used (hc : c.Accepted) {b : Broker ℝ} (hb : b ∈ c.brokers) (r : Resource) :
    b.load.get r ≤ (c.measured r b).1 := by
  unfold Cluster.measured
  split
  · rw [hostLoad_eq_sum]
    exact le_sum_host (fun _ hb' => load_nonneg hc hb' r) hb
  · exact le_rfl

theorem clusterLoad_nonneg (hc : c.Accepted) (r : Resource) : 0 ≤ c.load.get r := by
  rw [load_eq_sum]
  refine List.sum_nonneg fun x hx => ?_
  obtain ⟨b, hb, rfl⟩ := List.mem_map.mp hx
  exact load_nonneg hc hb r

theorem clusterCapacity_nonneg (hc : c.Accepted) (r : Resource) : 0 ≤ c.capacity.get r := by
  rw [capacity_eq_sum]
  refine List.sum_nonneg fun x hx => ?_
  obtain ⟨b, hb, rfl⟩ := List.mem_map.mp hx
  exact capacity_nonneg hc hb r

/-- The capacity of a broker itself is part of what its host has. -/
theorem capacity_le_hostCapacity (hc : c.Accepted) {b : Broker ℝ} (hb : b ∈ c.brokers)
    (r : Resource) : b.capacity.get r ≤ (c.hostOf b).capacity r := by
  rw [hostCapacity_eq_sum]
  exact le_sum_host (fun _ hb' => capacity_nonneg hc hb' r) hb

/-- What is measured of a broker has no more capacity than the whole cluster. -/
theorem measured_le_capacity (hc : c.Accepted) {b : Broker ℝ} (hb : b ∈ c.brokers)
    (r : Resource) : (c.measured r b).2 ≤ c.capacity.get r := by
  have hnonneg : ∀ b ∈ c.brokers, 0 ≤ b.capacity.get r := fun _ hb' => capacity_nonneg hc hb' r
  rw [capacity_eq_sum]
  unfold Cluster.measured
  split
  · exact sum_host_le hnonneg b.host
  · exact le_sum_brokers hnonneg hb

/-- What is measured of a broker uses no more than the whole cluster. -/
theorem used_le_load (hc : c.Accepted) {b : Broker ℝ} (hb : b ∈ c.brokers) (r : Resource) :
    (c.measured r b).1 ≤ c.load.get r := by
  have hnonneg : ∀ b ∈ c.brokers, 0 ≤ b.load.get r := fun _ hb' => load_nonneg hc hb' r
  rw [load_eq_sum]
  unfold Cluster.measured
  split
  · exact sum_host_le hnonneg b.host
  · exact le_sum_brokers hnonneg hb

end ClusterBalance.Exact
