import Mathlib
import ClusterBalance.Cluster.Amounts
import ClusterBalance.Proofs.Cluster.Answers
import ClusterBalance.Proofs.Decimal.Counts

/-! Clusters whose amounts are changed one by one. Main statement: with its amounts as doubles, a
cluster gives the same answers as with the amounts that it was given. -/

namespace ClusterBalance

open Decimal (Mixed)

section Map

variable {α β : Type} (f : α → β)

theorem PerResource.map_id (v : PerResource α) : v.map id = v :=
  ext_get fun r => get_map id v r

@[simp] theorem Replica.map_partition (r : Replica α) : (r.map f).partition = r.partition := rfl

@[simp] theorem Replica.map_topic (r : Replica α) : (r.map f).topic = r.topic := rfl

@[simp] theorem Replica.map_leader (r : Replica α) : (r.map f).leader = r.leader := rfl

@[simp] theorem Replica.map_offline (r : Replica α) : (r.map f).offline = r.offline := rfl

@[simp] theorem Broker.map_id (b : Broker α) : (b.map f).id = b.id := rfl

@[simp] theorem Broker.map_host (b : Broker α) : (b.map f).host = b.host := rfl

@[simp] theorem Broker.map_alive (b : Broker α) : (b.map f).alive = b.alive := rfl

@[simp] theorem Broker.map_replicas (b : Broker α) :
    (b.map f).replicas = b.replicas.map (Replica.map f) := rfl

@[simp] theorem Cluster.map_brokers (c : Cluster α) :
    (c.map f).brokers = c.brokers.map (Broker.map f) := rfl

theorem Broker.map_leaders (b : Broker α) :
    (b.map f).leaders = b.leaders.map (Replica.map f) := by
  simp [Broker.leaders, List.filter_map, Function.comp_def]

theorem Broker.map_numReplicas (b : Broker α) : (b.map f).numReplicas = b.numReplicas := by
  simp [Broker.numReplicas]

theorem Broker.map_numLeaders (b : Broker α) : (b.map f).numLeaders = b.numLeaders := by
  simp [Broker.numLeaders, List.countP_map, Function.comp_def]

theorem Broker.map_numReplicasOf (b : Broker α) (topic : LooseText) :
    (b.map f).numReplicasOf topic = b.numReplicasOf topic := by
  simp [Broker.numReplicasOf, List.countP_map, Function.comp_def]
  rfl

namespace Cluster

variable (c : Cluster α)

theorem map_broker? (id : Int) : (c.map f).broker? id = (c.broker? id).map (Broker.map f) := by
  simp [broker?, List.find?_map, Function.comp_def]
  rfl

theorem map_aliveBrokers : (c.map f).aliveBrokers = c.aliveBrokers.map (Broker.map f) := by
  simp [aliveBrokers, List.filter_map, Function.comp_def]

theorem map_deadBrokers : (c.map f).deadBrokers = c.deadBrokers.map (Broker.map f) := by
  simp [deadBrokers, List.filter_map, Function.comp_def]

theorem map_hostNamed (name : LooseText) :
    (c.map f).hostNamed name = (c.hostNamed name).map f := by
  simp [hostNamed, Host.map, List.filter_map, Function.comp_def]
  rfl

theorem map_hosts : (c.map f).hosts = c.hosts.map (Host.map f) := by
  simp [hosts, map_hostNamed, Function.comp_def]

theorem map_replicas : (c.map f).replicas = c.replicas.map (Replica.map f) := by
  simp [replicas, List.flatMap_map, List.map_flatMap]

theorem map_topics : (c.map f).topics = c.topics := by
  simp [topics, map_replicas, Function.comp_def]

theorem map_numReplicas : (c.map f).numReplicas = c.numReplicas := by
  simp [numReplicas, Broker.map_numReplicas, Function.comp_def]

theorem map_numReplicasOf (topic : LooseText) :
    (c.map f).numReplicasOf topic = c.numReplicasOf topic := by
  simp [numReplicasOf, Broker.map_numReplicasOf, Function.comp_def]

theorem map_placements :
    (c.map f).placements = c.placements.map fun (id, r) => (id, r.map f) := by
  simp [placements, List.flatMap_map, List.map_flatMap, Function.comp_def]

theorem map_healing : (c.map f).healing = c.healing.map fun (id, r) => (id, r.map f) := by
  simp [healing, List.flatMap_map, List.map_flatMap, List.filter_map, Function.comp_def]

theorem map_leaders : (c.map f).leaders = c.leaders.map fun (id, r) => (id, r.map f) := by
  simp [leaders, map_placements, List.filter_map, Function.comp_def]

theorem map_leader? (p : TopicPartition) :
    (c.map f).leader? p = (c.leader? p).map fun (id, r) => (id, r.map f) := by
  simp [leader?, map_leaders, List.find?_map, Function.comp_def]
  rfl

theorem map_leadershipLoad (r : Replica α) :
    leadershipLoad (c.map f).leaders (r.map f) =
      PerResource.map f (leadershipLoad c.leaders r) := by
  have hleader := c.map_leader? f r.partition
  simp only [leader?] at hleader
  unfold leadershipLoad
  rw [Replica.map_partition, hleader]
  cases c.leaders.find? _ <;> rfl

theorem map_ledPartitions (brokers : List (Broker α)) :
    ledPartitions (brokers.map (Broker.map f)) = ledPartitions brokers := by
  simp [ledPartitions, List.flatMap_map, Broker.map_leaders, Function.comp_def]

theorem map_id : c.map id = c := by
  have hreplica (r : Replica α) : r.map id = r := by rw [Replica.map, PerResource.map_id]
  have hbroker (b : Broker α) : b.map id = b := by
    rw [Broker.map, PerResource.map_id, funext hreplica, List.map_id']
  rw [map, funext hbroker, List.map_id']

theorem map_map {γ : Type} (g : β → γ) : (c.map f).map g = c.map fun a => g (f a) := by
  simp [map, Broker.map, Replica.map, PerResource.map, Function.comp_def]

end Cluster

end Map

section Equality

variable {α : Type} [BEq α] {g : α → α}

theorem PerResource.beq_iff {v w : PerResource α} :
    (v == w) = true ↔ ∀ r, (v.get r == w.get r) = true := by
  obtain ⟨cpu, networkIn, networkOut, disk⟩ := v
  obtain ⟨cpu', networkIn', networkOut', disk'⟩ := w
  change (cpu == cpu' && (networkIn == networkIn' && (networkOut == networkOut' &&
    disk == disk'))) = true ↔ _
  simp only [Bool.and_eq_true]
  constructor
  · rintro ⟨hcpu, hin, hout, hdisk⟩ r
    cases r <;> assumption
  · intro h
    exact ⟨h .cpu, h .networkIn, h .networkOut, h .disk⟩

theorem list_map_beq_iff {β : Type} [BEq β] {k : β → β} {xs : List β} :
    (xs.map k == xs) = true ↔ ∀ x ∈ xs, (k x == x) = true := by
  induction xs with
  | nil => exact iff_of_true rfl nofun
  | cons x xs ih =>
    rw [List.map_cons, List.cons_beq_cons, Bool.and_eq_true, ih, List.forall_mem_cons]

theorem Replica.map_beq_iff {r : Replica α} :
    (r.map g == r) = true ↔ ∀ s, (g (r.load.get s) == r.load.get s) = true := by
  obtain ⟨partition, leader, load, offline⟩ := r
  change (partition == partition && (leader == leader && (PerResource.map g load == load &&
    offline == offline))) = true ↔ _
  simp [PerResource.beq_iff]

theorem Broker.map_beq_iff {b : Broker α} :
    (b.map g == b) = true ↔ (∀ s, (g (b.capacity.get s) == b.capacity.get s) = true) ∧
      ∀ r ∈ b.replicas, ∀ s, (g (r.load.get s) == r.load.get s) = true := by
  obtain ⟨id, capacity, replicas, host, rack, alive⟩ := b
  change (id == id && (PerResource.map g capacity == capacity && (replicas.map (Replica.map g) ==
    replicas && (host == host && (rack == rack && alive == alive))))) = true ↔ _
  simp [PerResource.beq_iff, list_map_beq_iff, Replica.map_beq_iff]

/-- A cluster whose amounts are changed equals what it was exactly if each amount does. -/
theorem Cluster.map_beq_iff {c : Cluster α}
    (hratio : (c.monitoredRatio == c.monitoredRatio) = true) :
    (c.map g == c) = true ↔ ∀ b ∈ c.brokers,
      (∀ s, (g (b.capacity.get s) == b.capacity.get s) = true) ∧
        ∀ r ∈ b.replicas, ∀ s, (g (r.load.get s) == r.load.get s) = true := by
  obtain ⟨brokers, ratio, windows⟩ := c
  change (brokers.map (Broker.map g) == brokers && (ratio == ratio && windows == windows)) =
    true ↔ _
  rw [hratio]
  simp [list_map_beq_iff, Broker.map_beq_iff]

end Equality

section Sums

namespace Decimal.Mixed

/-- A number that stands for a natural number. -/
def Counts (n : Nat) : Mixed → Prop
  | whole k => k = n
  | double x => Decimal.Counts n x

theorem counts_nearest {a : Mixed} {n : Nat} (h : a.Counts n) (hle : n ≤ 2 ^ 53) :
    Decimal.Counts n a.nearest := by
  cases a with
  | whole k =>
    obtain rfl : k = n := h
    exact counts_nearestRatio hle
  | double x => exact h

theorem forall₂_counts_nearest {xs : List Mixed} {ns : List Nat}
    (h : List.Forall₂ Mixed.Counts ns xs) (hle : ns.sum ≤ 2 ^ 53) :
    List.Forall₂ Decimal.Counts ns (xs.map nearest) := by
  induction h with
  | nil => exact .nil
  | @cons n x ns xs hx _ ih =>
    rw [List.sum_cons] at hle
    exact .cons (counts_nearest hx (by omega)) (ih (by omega))

theorem isLong_natCast {n : Nat} (h : n ≤ 2 ^ 53) : isLong n = true := by
  simp only [isLong, Bool.and_eq_true, decide_eq_true_eq]
  omega

/-- A subtotal that stands for a natural number, and in which nothing was rounded off. -/
def Subtotal.Counts (n : Nat) : Subtotal → Prop
  | word k => k = n
  | running t => RunningTotal.Counts n t
  | single _ => False

namespace Subtotal

variable {s : Subtotal} {m n : Nat}

theorem Counts.result (h : s.Counts n) : s.result.Counts n := by
  cases s with
  | word k => exact h
  | running t => exact RunningTotal.Counts.result h
  | single a => exact h.elim

theorem Counts.add? {a : Mixed} (hs : s.Counts m) (ha : a.Counts n) (hle : m + n ≤ 2 ^ 53) :
    ∃ s', s.add? a = some s' ∧ s'.Counts (m + n) := by
  have hm : m ≤ 2 ^ 53 := by omega
  have hn : n ≤ 2 ^ 53 := by omega
  cases s with
  | word k =>
    obtain rfl : k = m := hs
    cases a with
    | whole j =>
      obtain rfl : j = n := ha
      have hlong : isLong (m + n) = true := by exact_mod_cast isLong_natCast hle
      refine ⟨.word (m + n), ?_, (Nat.cast_add m n).symm⟩
      rw [Subtotal.add?, isLong_natCast hn, hlong]
      rfl
    | double x =>
      refine ⟨_, rfl, ?_, zero_beq_zero⟩
      rw [Nat.add_comm]
      exact Decimal.Counts.add ha (counts_nearestRatio hm) (by omega)
  | running t =>
    cases a with
    | whole j =>
      obtain rfl : j = n := ha
      refine ⟨.running { t with total := t.total + nearestRatio n 1 }, ?_, ?_, hs.lost⟩
      · rw [Subtotal.add?, isLong_natCast hn]
        rfl
      · exact hs.total.add (counts_nearestRatio hn) hle
    | double x => exact ⟨_, rfl, RunningTotal.Counts.add hs ha hle⟩
  | single b => exact hs.elim

theorem Counts.foldlM {xs : List Mixed} {ns : List Nat} (hs : s.Counts m)
    (h : List.Forall₂ Mixed.Counts ns xs) (hle : m + ns.sum ≤ 2 ^ 53) :
    ∃ s', xs.foldlM Subtotal.add? s = some s' ∧ s'.Counts (m + ns.sum) := by
  induction h generalizing m s with
  | nil => exact ⟨s, rfl, hs⟩
  | @cons n x ns xs hx _ ih =>
    rw [List.sum_cons, ← Nat.add_assoc] at hle ⊢
    obtain ⟨s₁, hadd, hs₁⟩ := hs.add? hx (by omega)
    obtain ⟨s', hrest, hs'⟩ := ih hs₁ hle
    exact ⟨s', by rw [List.foldlM_cons, hadd, Option.bind_eq_bind, Option.bind_some, hrest], hs'⟩

theorem foldlM_double (t : RunningTotal) (ys : List Float) :
    (ys.map Mixed.double).foldlM Subtotal.add? (.running t) =
      some (.running (ys.foldl RunningTotal.add t)) := by
  induction ys generalizing t with
  | nil => rfl
  | cons y ys ih => exact ih (t.add y)

end Subtotal

/-- The sum of numbers that stand for natural numbers stands for their sum. -/
theorem exists_total?_counts {xs : List Mixed} {ns : List Nat}
    (h : List.Forall₂ Mixed.Counts ns xs) (hle : ns.sum ≤ 2 ^ 53) :
    ∃ a, total? xs = some a ∧ a.Counts ns.sum := by
  have hstart : (Subtotal.word 0).Counts 0 := rfl
  obtain ⟨s, hs, hcounts⟩ := hstart.foldlM h (by omega)
  rw [Nat.zero_add] at hcounts
  exact ⟨s.result, by rw [total?, hs, Option.map_some], hcounts.result⟩

/-- Doubles are added up as such. -/
theorem total?_double {ys : List Float} (h : ys ≠ []) :
    total? (ys.map Mixed.double) = some (.double (compensatedSum ys)) := by
  obtain ⟨y, ys, rfl⟩ := List.exists_cons_of_ne_nil h
  have hzero : nearestRatio 0 1 = 0.0 := by decide +kernel
  have hfirst : Subtotal.add? (.word 0) (.double y) = some (.running ⟨y + 0.0, 0.0⟩) := by
    rw [Subtotal.add?, hzero]
  rw [total?, List.map_cons, List.foldlM_cons, hfirst, Option.bind_eq_bind, Option.bind_some,
    Subtotal.foldlM_double]
  rfl

end Decimal.Mixed

/-- Adding vectors up as they were given is adding them up as doubles. -/
theorem LoadVector.sum_map_nearest (vs : List (LoadVector Mixed)) :
    LoadVector.sum (vs.map (PerResource.map Mixed.nearest)) = LoadVector.sumGiven vs := by
  simp only [LoadVector.sum, LoadVector.sumGiven, List.foldl_map, LoadVector.add,
    PerResource.get_map]

theorem Broker.load_map_nearest (b : Broker Mixed) :
    (b.map Mixed.nearest).load = b.givenLoad := by
  rw [Broker.load, Broker.givenLoad, ← LoadVector.sum_map_nearest, Broker.map_replicas,
    List.map_map, List.map_map]
  rfl

end Sums

namespace Host

variable {h : Host Mixed} {r : Resource}

theorem load_map_nearest (h : Host Mixed) (r : Resource) :
    (h.map Mixed.nearest).load r = h.givenLoad r := by
  simp only [load, givenLoad, map, List.map_map, Function.comp_def, Broker.load_map_nearest]

theorem capacity_map_nearest (h : Host Mixed) (r : Resource) :
    (h.map Mixed.nearest).capacity r =
      compensatedSum ((h.brokers.map fun b => b.capacity.get r).map Mixed.nearest) := by
  simp [capacity, map, Broker.map, Function.comp_def, Scalar.total]

theorem givenCapacity?_of_doubles (hne : h.brokers ≠ [])
    (hdoubles : ∀ b ∈ h.brokers, ∃ x, b.capacity.get r = .double x) :
    h.givenCapacity? r = some (.double ((h.map Mixed.nearest).capacity r)) := by
  have hamounts : h.brokers.map (fun b => b.capacity.get r) =
      (h.brokers.map fun b => (b.capacity.get r).nearest).map Mixed.double := by
    rw [List.map_map]
    refine List.map_congr_left fun b hb => ?_
    obtain ⟨x, hx⟩ := hdoubles b hb
    rw [Function.comp_apply, hx, Mixed.nearest]
  rw [givenCapacity?, hamounts, Mixed.total?_double (by simpa using hne), capacity_map_nearest,
    List.map_map]
  rfl

/-- Capacities that stand for natural numbers are added up exactly, and so are their doubles. -/
theorem givenCapacity?_of_counts {ns : List Nat}
    (hcounts : List.Forall₂ (fun n b => (b.capacity.get r).Counts n) ns h.brokers)
    (hle : ns.sum ≤ 2 ^ 53) :
    ∃ a, h.givenCapacity? r = some a ∧ a.Counts ns.sum ∧
      Decimal.Counts ns.sum ((h.map Mixed.nearest).capacity r) := by
  have hamounts : List.Forall₂ Mixed.Counts ns (h.brokers.map fun b => b.capacity.get r) :=
    List.forall₂_map_right_iff.mpr hcounts
  obtain ⟨a, ha, hcount⟩ := Mixed.exists_total?_counts hamounts hle
  refine ⟨a, ha, hcount, ?_⟩
  rw [capacity_map_nearest]
  exact Decimal.counts_compensatedSum (Mixed.forall₂_counts_nearest hamounts hle) hle

end Host

namespace Cluster

/-- How a cluster of doubles answers in place of one that was given other amounts. -/
structure AnswersFor (d : Cluster Float) (m : Cluster Mixed) : Prop where
  monitoredRatio : d.monitoredRatio = m.monitoredRatio
  windows : d.windows = m.windows
  broker : ∀ id, d.broker? id = (m.broker? id).map (Broker.map Mixed.nearest)
  aliveBrokers : d.aliveBrokers = m.aliveBrokers.map (Broker.map Mixed.nearest)
  deadBrokers : d.deadBrokers = m.deadBrokers.map (Broker.map Mixed.nearest)
  hosts : d.hosts = m.hosts.map (Host.map Mixed.nearest)
  hostOf : ∀ b, d.hostOf (b.map Mixed.nearest) = (m.hostOf b).map Mixed.nearest
  topics : d.topics = m.topics
  replicas : d.replicas = m.replicas.map (Replica.map Mixed.nearest)
  numReplicas : d.numReplicas = m.numReplicas
  numReplicasOf : ∀ topic, d.numReplicasOf topic = m.numReplicasOf topic
  healing : d.healing = m.healing.map fun (id, r) => (id, r.map Mixed.nearest)
  leader : ∀ p, d.leader? p = (m.leader? p).map fun (id, r) => (id, r.map Mixed.nearest)
  brokerCounts : ∀ b ∈ m.brokers, (b.map Mixed.nearest).numReplicas = b.numReplicas ∧
    (b.map Mixed.nearest).numLeaders = b.numLeaders ∧
      ∀ topic, (b.map Mixed.nearest).numReplicasOf topic = b.numReplicasOf topic
  brokerLoad : ∀ b ∈ m.brokers, (b.map Mixed.nearest).load = b.givenLoad
  hostLoad : ∀ h ∈ m.hosts, ∀ r, (h.map Mixed.nearest).load r = h.givenLoad r
  hostCapacity : ∀ h ∈ m.hosts, ∀ r, (∀ b ∈ h.brokers, ∃ x, b.capacity.get r = .double x) →
    h.givenCapacity? r = some (.double ((h.map Mixed.nearest).capacity r))
  hostCapacityWhole : ∀ h ∈ m.hosts, ∀ r, ∀ ns : List Nat,
    List.Forall₂ (fun n b => (b.capacity.get r).Counts n) ns h.brokers → ns.sum ≤ 2 ^ 53 →
      ∃ a, h.givenCapacity? r = some a ∧ a.Counts ns.sum ∧
        Decimal.Counts ns.sum ((h.map Mixed.nearest).capacity r)
  potentialLoad : ∀ b ∈ m.brokers, d.potentialLoad (b.map Mixed.nearest) = m.givenPotentialLoad b
  load : d.load = m.givenLoad
  capacity : d.capacity = m.givenCapacity
  loadMatrix : d.loadMatrix = m.givenLoadMatrix

/-- With its amounts as doubles a cluster answers as it was given. -/
theorem answersFor_map_nearest (m : Cluster Mixed) : (m.map Mixed.nearest).AnswersFor m := {
  monitoredRatio := rfl
  windows := rfl
  broker := m.map_broker? _
  aliveBrokers := m.map_aliveBrokers _
  deadBrokers := m.map_deadBrokers _
  hosts := m.map_hosts _
  hostOf := fun b => m.map_hostNamed _ b.host
  topics := m.map_topics _
  replicas := m.map_replicas _
  numReplicas := m.map_numReplicas _
  numReplicasOf := m.map_numReplicasOf _
  healing := m.map_healing _
  leader := m.map_leader? _
  brokerCounts := fun b _ => ⟨b.map_numReplicas _, b.map_numLeaders _, b.map_numReplicasOf _⟩
  brokerLoad := fun b _ => b.load_map_nearest
  hostLoad := fun h _ => h.load_map_nearest
  hostCapacity := by
    intro h hmem r hdoubles
    obtain ⟨b, hb, rfl⟩ := m.mem_hosts_iff.mp hmem
    have hself : b ∈ (m.hostOf b).brokers := m.mem_brokers_hostOf_iff.mpr ⟨hb, rfl⟩
    exact Host.givenCapacity?_of_doubles (List.ne_nil_of_mem hself) hdoubles
  hostCapacityWhole := fun h _ r ns => Host.givenCapacity?_of_counts
  potentialLoad := by
    intro b _
    rw [potentialLoad, givenPotentialLoad, ← LoadVector.sum_map_nearest, Broker.map_replicas,
      List.map_map, List.map_map]
    congr 2
    exact funext fun r => m.map_leadershipLoad _ r
  load := by
    rw [load, givenLoad, map_brokers, List.map_map]
    congr 2
    exact funext Broker.load_map_nearest
  capacity := by
    rw [capacity, givenCapacity, ← LoadVector.sum_map_nearest, map_brokers, List.map_map,
      List.map_map]
    rfl
  loadMatrix := by
    rw [loadMatrix, givenLoadMatrix, map_aliveBrokers, List.map_map]
    congr 1
    exact funext Broker.load_map_nearest }

end Cluster

end ClusterBalance
