import Mathlib
import ClusterBalance.Proofs.Cluster.Counts
import ClusterBalance.Proofs.Exact.Scalar

/-! The loads that brokers would carry if they led all partitions they host. Main statement: over
all brokers, the load of the leader of a partition is counted once for each replica of the
partition, and the replicas of partitions without a leader bring their own loads; a broker without
followers would carry what it carries. -/

namespace ClusterBalance

theorem sum_filterMap {β M : Type} [AddMonoid M] (f : β → Option M) (xs : List β) :
    (xs.filterMap f).sum = (xs.map fun x => (f x).getD 0).sum := by
  induction xs with
  | nil => rfl
  | cons x xs ih => cases h : f x <;> simp [h, ih]

namespace Cluster

section Partitions

variable {α : Type}

/-- The partitions that replicas are of. -/
def partitions (c : Cluster α) : List TopicPartition := (c.replicas.map (·.partition)).eraseDups

/-- The number of replicas of a partition. -/
def numCopies (c : Cluster α) (p : TopicPartition) : Nat := c.replicas.countP (·.partition = p)

/-- The replicas of the partitions that no replica leads. -/
def leaderless (c : Cluster α) : List (Replica α) :=
  c.replicas.filter fun x => c.leader? x.partition = none

end Partitions

/-- What each replica would bring if it led, and where that adds up to the load of a broker. Nothing
is asked of a leader but that it is placed on some broker: the broker may be dead, or the replica
offline. -/
structure CountsLeaders {α : Type} [Scalar α] (c : Cluster α) : Prop where
  leader : ∀ p id y, c.leader? p = some (id, y) ↔
    ∃ b ∈ c.brokers, b.id = id ∧ y ∈ b.replicas ∧ y.leader = true ∧ y.partition = p
  led : ∀ x y, c.leader? x.partition = some y → leadershipLoad c.leaders x = y.2.load
  leaderless : ∀ x, c.leader? x.partition = none → leadershipLoad c.leaders x = x.load
  broker : ∀ b ∈ c.brokers,
    (∀ x ∈ b.replicas, x.leader = true ∨ c.leader? x.partition = none) → c.potentialLoad b = b.load

section Made

variable {α : Type} {brokers : List (Broker α)} {ratio : Float} {windows : Int} {c : Cluster α}

theorem leadershipLoad_of_leader? {x : Replica α} {y : Nat × Replica α}
    (h : c.leader? x.partition = some y) : leadershipLoad c.leaders x = y.2.load := by
  unfold leader? at h
  simp only [leadershipLoad, h]

theorem leadershipLoad_of_leaderless {x : Replica α} (h : c.leader? x.partition = none) :
    leadershipLoad c.leaders x = x.load := by
  unfold leader? at h
  simp only [leadershipLoad, h]

theorem leader?_eq_some_iff_placed (h : make brokers ratio windows = .ok c) {p : TopicPartition}
    {id : Nat} {y : Replica α} :
    c.leader? p = some (id, y) ↔
      ∃ b ∈ c.brokers, b.id = id ∧ y ∈ b.replicas ∧ y.leader = true ∧ y.partition = p := by
  rw [leader?_eq_some_iff h, placements, List.mem_flatMap]
  constructor
  · rintro ⟨⟨b, hb, hy⟩, hled, hpartition⟩
    obtain ⟨y, hy, ⟨⟩⟩ := List.mem_map.mp hy
    exact ⟨b, hb, rfl, hy, hled, hpartition⟩
  · rintro ⟨b, hb, rfl, hy, hled, hpartition⟩
    exact ⟨⟨b, hb, List.mem_map_of_mem hy⟩, hled, hpartition⟩

theorem countsLeaders_of_make [Scalar α] (h : make brokers ratio windows = .ok c) :
    c.CountsLeaders := by
  refine ⟨fun p id y => leader?_eq_some_iff_placed h, fun x y => leadershipLoad_of_leader?,
    fun x => leadershipLoad_of_leaderless, fun b hb hall => ?_⟩
  have hloads : b.replicas.map (leadershipLoad c.leaders) = b.replicas.map (·.load) := by
    apply List.map_congr_left
    intro x hx
    rcases hall x hx with hled | hnone
    · -- no other replica leads the partition
      have hleader := (leader?_eq_some_iff_placed h).mpr ⟨b, hb, rfl, hx, hled, rfl⟩
      exact leadershipLoad_of_leader? hleader
    · exact leadershipLoad_of_leaderless hnone
  rw [potentialLoad, hloads, Broker.load]

end Made

section Sums

variable (c : Cluster ℝ) (r : Resource)

theorem sum_potentialLoad :
    (c.brokers.map fun b => (c.potentialLoad b).get r).sum =
      (c.replicas.map fun x => (leadershipLoad c.leaders x).get r).sum := by
  rw [replicas, List.map_flatMap, sum_flatMap]
  simp only [potentialLoad, Exact.get_sum, List.map_map, Function.comp_def]

/-- A replica brings what the leader of its partition does, or else what it brings itself. -/
theorem get_leadershipLoad (x : Replica ℝ) :
    (leadershipLoad c.leaders x).get r =
      ((c.leader? x.partition).map fun y => y.2.load.get r).getD 0 +
        if c.leader? x.partition = none then x.load.get r else 0 := by
  cases h : c.leader? x.partition with
  | none => simp [leadershipLoad_of_leaderless h]
  | some y => simp [leadershipLoad_of_leader? h]

/-- The sum over the replicas is one over the partitions that are led, where the load of a leader
counts once for each replica, and over the replicas that follow nobody. -/
theorem sum_potentialLoad_eq :
    (c.brokers.map fun b => (c.potentialLoad b).get r).sum =
      (c.partitions.filterMap fun p =>
          (c.leader? p).map fun y => (c.numCopies p : ℝ) * y.2.load.get r).sum +
        (c.leaderless.map fun x => x.load.get r).sum := by
  have hled : (c.replicas.map fun x =>
        ((c.leader? x.partition).map fun y => y.2.load.get r).getD 0).sum =
      (c.partitions.filterMap fun p =>
        (c.leader? p).map fun y => (c.numCopies p : ℝ) * y.2.load.get r).sum := by
    have hkeys := sum_map_keys (fun x : Replica ℝ => x.partition)
      (fun p => ((c.leader? p).map fun y => y.2.load.get r).getD 0) c.replicas
    rw [hkeys, sum_filterMap]
    refine congrArg List.sum (List.map_congr_left fun p _ => ?_)
    cases c.leader? p <;> simp [numCopies]
  have hown : (c.replicas.map fun x =>
        if c.leader? x.partition = none then x.load.get r else 0).sum =
      (c.leaderless.map fun x => x.load.get r).sum := by
    rw [List.sum_map_ite, List.sum_map_zero, add_zero, leaderless]
  rw [sum_potentialLoad, funext (c.get_leadershipLoad r), List.sum_map_add, hled, hown]

end Sums

/-- Whatever brokers a cluster is made of, their potential loads add up by partition in exact
arithmetic, and with any rounding a broker whose replicas follow nobody would carry what it does. -/
theorem make_countsLeaders :
    (∀ (brokers : List (Broker ℝ)) (ratio : Float) (windows : Int) (c : Cluster ℝ),
      make brokers ratio windows = .ok c → ∀ r,
        (c.brokers.map fun b => (c.potentialLoad b).get r).sum =
          (c.partitions.filterMap fun p =>
              (c.leader? p).map fun y => (c.numCopies p : ℝ) * y.2.load.get r).sum +
            (c.leaderless.map fun x => x.load.get r).sum) ∧
      ∀ (α : Type) [Scalar α] (brokers : List (Broker α)) (ratio : Float) (windows : Int)
        (c : Cluster α), make brokers ratio windows = .ok c → c.CountsLeaders :=
  ⟨fun _ _ _ c _ r => c.sum_potentialLoad_eq r, fun _ _ _ _ _ _ h => countsLeaders_of_make h⟩

/-- Two brokers. The second is dead and leads, from a failed disk, the partition that both have; the
first has a partition without a leader besides. -/
noncomputable def bypassed : Cluster ℝ where
  brokers :=
    [ { id := 0, capacity := PerResource.replicate 1, host := "a", rack := "", alive := true
        replicas := [⟨⟨"t", 0, t_ne_empty⟩, false, PerResource.replicate 0, false⟩,
          ⟨⟨"t", 1, t_ne_empty⟩, false, PerResource.replicate 1, false⟩] },
      { id := 1, capacity := PerResource.replicate 1, host := "b", rack := "", alive := false
        replicas := [⟨⟨"t", 0, t_ne_empty⟩, true, PerResource.replicate 1, true⟩] } ]
  monitoredRatio := 1.0
  windows := 1

theorem make_bypassed : make bypassed.brokers 1.0 1 = .ok bypassed :=
  make_of_ordered (by decide +kernel) (by simp [bypassed])
    (by simp [bypassed, ledPartitions, Broker.leaders])

theorem make_ailing : make ailing.brokers 1.0 1 = .ok ailing :=
  make_of_ordered (by decide +kernel) (by decide) (by decide)

theorem ailing_accepted : ailing.Accepted := by
  refine ⟨ailing.brokers, 1.0, 1, fun b hb => ?_, make_ailing⟩
  rcases (by simpa [ailing] using hb) with rfl | rfl | rfl
  all_goals exact ⟨by decide +kernel, by decide +kernel, by decide⟩

/-- The dead leader counts for both brokers of the first cluster; in the second, a broker that leads
and one without a leader would carry what they do. -/
theorem make_countsLeaders_bypassed :
    make bypassed.brokers 1.0 1 = .ok bypassed ∧
      (∀ r, (bypassed.brokers.map fun b => (bypassed.potentialLoad b).get r).sum = 2 * 1 + 1) ∧
      make ailing.brokers 1.0 1 = .ok ailing ∧ ailing.CountsLeaders ∧
      ∀ b ∈ ailing.brokers, b.id ≠ 7 → ailing.potentialLoad b = b.load := by
  have hcounts := make_countsLeaders.2 Float _ _ _ _ make_ailing
  refine ⟨make_bypassed, fun r => ?_, make_ailing, hcounts, fun b hb hid => ?_⟩
  · have hpartitions :
        bypassed.partitions = [⟨"t", 0, t_ne_empty⟩, ⟨"t", 1, t_ne_empty⟩] := rfl
    rw [make_countsLeaders.1 _ _ _ _ make_bypassed r, hpartitions]
    simp [numCopies, leader?, leaders, placements, leaderless, replicas, bypassed,
      PerResource.replicate]
  · refine hcounts.broker b hb ?_
    rcases (by simpa [ailing] using hb) with rfl | rfl | rfl
    · decide
    · decide
    · exact absurd rfl hid

end Cluster

end ClusterBalance
