import ClusterBalance.Proofs.Alike
import ClusterBalance.Proofs.Cluster.Counts
import ClusterBalance.Proofs.Decimal.Signs
import ClusterBalance.Proofs.Snapshot.DefaultHost
import ClusterBalance.Proofs.Statistics.Balanced

/-! The resources that the brokers of a host share. The summary of one visits the brokers and reads
their hosts. Main statement: host by host all alive brokers count as balanced or none does, and the
extremes are those of the hosts with an alive broker; where no two brokers run on one host, the
brokers could have been read instead. -/

namespace ClusterBalance

open Decimal

section Extremes

variable {xs ys : List Float}

theorem notMinusZero_largest : NotMinusZero Scalar.largest := by
  intro hzero
  have hvalue := value_largest
  rw [value, hzero] at hvalue
  norm_num [amount, hiddenBit, greatestExponent] at hvalue

/-- What is taken of the same doubles is the same one, if the negative zero is not among them. -/
theorem eq_of_picked {L : Type} [PartialOrder L] {key : Float → L} {start x y : Float}
    (hkey : ∀ x y, key x = key y → place x = place y)
    (hx : Picked key (·.isNaN = false) start xs x) (hy : Picked key (·.isNaN = false) start ys y)
    (hmem : ∀ x, x ∈ xs ↔ x ∈ ys) (hstart : NotMinusZero start)
    (hplain : ∀ x ∈ xs, NotMinusZero x) : x = y := by
  have hplace : place x = place y := hkey x y (hx.key_eq hy hmem)
  refine eq_of_beq ((beq_iff_place hx.kept hy.kept).mpr hplace) ?_ ?_
  · rcases hx.mem with rfl | hx
    · exact hstart
    · exact hplain _ hx
  · rcases hy.mem with rfl | hy
    · exact hstart
    · exact hplain _ ((hmem _).mpr hy)

theorem foldl_larger_eq (hmem : ∀ x, x ∈ xs ↔ x ∈ ys) (hplain : ∀ x ∈ xs, NotMinusZero x) :
    xs.foldl Scalar.larger 0 = ys.foldl Scalar.larger (0 : Float) :=
  eq_of_picked (fun _ _ h => h) (picks_larger.foldl isNaN_zero xs)
    (picks_larger.foldl isNaN_zero ys) hmem notMinusZero_zero hplain

theorem foldl_smaller_eq (hmem : ∀ x, x ∈ xs ↔ x ∈ ys) (hplain : ∀ x ∈ xs, NotMinusZero x) :
    xs.foldl Scalar.smaller Scalar.largest = ys.foldl Scalar.smaller (Scalar.largest : Float) :=
  eq_of_picked (fun _ _ h => OrderDual.toDual_inj.mp h) (picks_smaller.foldl isNaN_largest xs)
    (picks_smaller.foldl isNaN_largest ys) hmem notMinusZero_largest hplain

end Extremes

namespace Cluster

section Definitions

variable {α : Type} [Scalar α]

/-- What a broker uses of a resource itself, and what it has. -/
def own (r : Resource) (b : Broker α) : α × α := (b.load.get r, b.capacity.get r)

/-- The summary of a resource, where what a broker uses and has is read in some way. -/
def summarizeBy (c : Cluster α) (use : Broker α → α × α) (constraint : Constraint α) (r : Resource)
    (numAlive : Divisor α) : Except StatsError (ResourceSummary α) := do
  let average ← c.usedFraction r
  let band := Band.around average (constraint.percentage.get r)
  let readings ← c.aliveBrokers.mapM fun b =>
    BrokerReading.make (.brokerCapacity r b.id) average band.contains (use b).1 (use b).2
  let spread ← spreadOfReadings (c.load.get r) numAlive readings
  return {
    resource := r
    spread
    balanced := numAccepted readings
    averageFraction := average
    band }

theorem summarizeResource_eq_summarizeBy (c : Cluster α) (k : Constraint α) (r : Resource)
    (numAlive : Divisor α) :
    c.summarizeResource k r numAlive = c.summarizeBy (c.measured r) k r numAlive := rfl

/-- The hosts that an alive broker runs on. -/
def liveHosts (c : Cluster α) : List (Host α) := c.hosts.filter fun h => h.brokers.any (·.alive)

end Definitions

variable {c : Cluster Float} {k : Constraint Float} {r : Resource} {numAlive : Divisor Float}
  {s : ResourceSummary Float}

/-- How the summary of a shared resource is made up of the hosts. -/
structure ByHosts (c : Cluster Float) (k : Constraint Float) (r : Resource)
    (s : ResourceSummary Float) : Prop where
  counted : s.balanced = c.aliveBrokers.countP (c.countsAsBalanced k r)
  together : ∀ h ∈ c.hosts, ∀ b ∈ h.brokers, b.alive = true →
    c.countsAsBalanced k r b = s.band.contains (h.load r / h.capacity r)
  balanced : s.balanced = ((c.hosts.filter fun h => s.band.contains (h.load r / h.capacity r)).map
    fun h => h.brokers.countP (·.alive)).sum
  divided : ∀ h ∈ c.liveHosts, (h.capacity r == 0.0) = false
  maximum : s.spread.maximum = (c.liveHosts.map (·.load r)).foldl Scalar.larger 0
  minimum : s.spread.minimum = (c.liveHosts.map (·.load r)).foldl Scalar.smaller Scalar.largest

section Shared

theorem measured_of_shared (hr : r.isShared = true) (b : Broker Float) :
    c.measured r b = ((c.hostOf b).load r, (c.hostOf b).capacity r) :=
  if_pos hr

theorem mem_liveHosts_iff {h : Host Float} :
    h ∈ c.liveHosts ↔ ∃ b ∈ c.aliveBrokers, h = c.hostOf b := by
  rw [liveHosts, List.mem_filter, List.any_eq_true]
  constructor
  · rintro ⟨hh, b, hb, halive⟩
    obtain ⟨a, -, rfl⟩ := c.mem_hosts_iff.mp hh
    obtain ⟨hmem, hhost⟩ := c.mem_brokers_hostOf_iff.mp hb
    exact ⟨b, List.mem_filter.mpr ⟨hmem, halive⟩, by rw [hostOf, hostOf, hhost]⟩
  · rintro ⟨b, hb, rfl⟩
    obtain ⟨hmem, halive⟩ := List.mem_filter.mp hb
    exact ⟨c.mem_hosts_iff.mpr ⟨b, hmem, rfl⟩, b, c.mem_brokers_hostOf_iff.mpr ⟨hmem, rfl⟩, halive⟩

theorem mem_measured_iff (hr : r.isShared = true) (x : Float) :
    x ∈ c.aliveBrokers.map (fun b => (c.measured r b).1) ↔ x ∈ c.liveHosts.map (·.load r) := by
  simp only [List.mem_map, mem_liveHosts_iff, measured_of_shared hr]
  constructor
  · rintro ⟨b, hb, rfl⟩
    exact ⟨_, ⟨b, hb, rfl⟩, rfl⟩
  · rintro ⟨_, ⟨b, hb, rfl⟩, rfl⟩
    exact ⟨b, hb, rfl⟩

theorem countsAsBalanced_of_host (hr : r.isShared = true)
    (h : c.summarizeResource k r numAlive = .ok s) {host : Host Float} (hhost : host ∈ c.hosts)
    {b : Broker Float} (hb : b ∈ host.brokers) (halive : b.alive = true) :
    (host.capacity r == 0.0) = false ∧
      c.countsAsBalanced k r b = s.band.contains (host.load r / host.capacity r) := by
  obtain ⟨a, -, rfl⟩ := c.mem_hosts_iff.mp hhost
  obtain ⟨hmem, hname⟩ := c.mem_brokers_hostOf_iff.mp hb
  have hsame : c.hostOf a = c.hostOf b := by rw [hostOf, hostOf, hname]
  have hcounts := countsAsBalanced_eq h (List.mem_filter.mpr ⟨hmem, halive⟩)
  rwa [measured_of_shared hr, ← hsame] at hcounts

theorem countP_aliveBrokers (c : Cluster Float) (p : Broker Float → Bool) :
    c.aliveBrokers.countP p =
      (c.hosts.map fun h => h.brokers.countP fun b => p b && b.alive).sum := by
  rw [aliveBrokers, List.countP_filter, ← c.hosts_parted.countP_eq, List.countP_flatMap]
  rfl

theorem balanced_eq_sum_hosts (hr : r.isShared = true)
    (h : c.summarizeResource k r numAlive = .ok s) :
    s.balanced = ((c.hosts.filter fun h => s.band.contains (h.load r / h.capacity r)).map
      fun h => h.brokers.countP (·.alive)).sum := by
  -- the alive brokers of a host are judged by the same share, so they all count or none does
  have hhost : ∀ host ∈ c.hosts,
      host.brokers.countP (fun b => c.countsAsBalanced k r b && b.alive) =
        if s.band.contains (host.load r / host.capacity r) = true then
          host.brokers.countP (·.alive) else 0 := by
    intro host hhost
    have hbroker : ∀ b ∈ host.brokers, b.alive = true → c.countsAsBalanced k r b =
        s.band.contains (host.load r / host.capacity r) := fun b hb halive =>
      (countsAsBalanced_of_host hr h hhost hb halive).2
    split
    next hin =>
      refine List.countP_congr fun b hb => ?_
      rw [Bool.and_eq_true, and_iff_right_iff_imp]
      exact fun halive => (hbroker b hb halive).trans hin
    next hout =>
      rw [List.countP_eq_zero]
      intro b hb hcounts
      obtain ⟨hcounts, halive⟩ := Bool.and_eq_true_iff.mp hcounts
      exact hout ((hbroker b hb halive).symm.trans hcounts)
  rw [balanced_of_summarizeResource h, countP_aliveBrokers, List.map_congr_left hhost,
    List.sum_map_ite]
  simp

end Shared

section Apart

/-- A host that one broker runs on has what the broker has, except that it has no negative zero. -/
theorem measured_apart (hr : r.isShared = true) (hnodup : (c.brokers.map (·.host)).Nodup)
    {b : Broker Float} (hb : b ∈ c.brokers) :
    c.measured r b = ((own r b).1, (own r b).2 + 0.0) := by
  have halone : (c.hostOf b).brokers = [b] := by
    refine (brokers_hostOf_eq_singleton_iff hnodup.of_map hb).mpr fun a ha => ?_
    obtain ⟨hmem, hhost⟩ := c.mem_brokers_hostOf_iff.mp ha
    exact List.inj_on_of_nodup_map hnodup hmem hb hhost
  have htotal (f : Broker Float → Float) :
      Scalar.total ((c.hostOf b).brokers.map f) = f b + 0.0 := by
    rw [halone]
    exact compensatedSum_singleton (f b)
  rw [measured_of_shared hr, Host.load, Host.capacity, htotal, htotal]
  exact Prod.ext (add_zero (notMinusZero_sum _ r)) rfl

/-- The negative zero is refused as a capacity just as zero is. -/
theorem make_add_zero (quantity : Quantity) (fraction used capacity : Float)
    (accepts : Float → Bool) :
    BrokerReading.make quantity fraction accepts used (capacity + 0.0) =
      BrokerReading.make quantity fraction accepts used capacity := by
  by_cases hplain : NotMinusZero capacity
  · rw [add_zero hplain]
  · have hzero : (capacity == 0.0) = true := beq_zero_iff.mpr ⟨.negative, not_not.mp hplain⟩
    have hzero' := zero_add_zero hzero zero_beq_zero
    have hrefused {x : Float} (hx : (x == 0.0) = true) :
        BrokerReading.make quantity fraction accepts used x =
          StatsError.words quantity >>= fun _ => .error (.degenerate quantity) := by
      rw [BrokerReading.make, divide, isZero_eq, if_pos hx]
      rfl
    rw [hrefused hzero, hrefused hzero']

theorem summarizeResource_apart (hr : r.isShared = true)
    (hnodup : (c.brokers.map (·.host)).Nodup) (k : Constraint Float) (numAlive : Divisor Float) :
    c.summarizeResource k r numAlive = c.summarizeBy (own r) k r numAlive := by
  have hreadings (average : Float) (band : Band Float) :
      (c.aliveBrokers.mapM fun b => BrokerReading.make (.brokerCapacity r b.id) average
        band.contains (c.measured r b).1 (c.measured r b).2) =
      c.aliveBrokers.mapM fun b => BrokerReading.make (.brokerCapacity r b.id) average
        band.contains (own r b).1 (own r b).2 := by
    refine mapM_eq_of_forall₂ (List.forall₂_same.mpr fun b hb => ?_) fun _ _ h => h
    rw [measured_apart hr hnodup (List.mem_filter.mp hb).1, make_add_zero]
  rw [summarizeResource_eq_summarizeBy]
  simp only [summarizeBy, hreadings]

end Apart

/-- The summary of a resource that hosts share counts and measures hosts; if every broker has a host
of its own, it is the same, down to its refusals, as if the brokers were read. -/
theorem summarizeResource_byHosts (c : Cluster Float) (k : Constraint Float)
    (numAlive : Divisor Float) (hr : r.isShared = true) :
    (∀ s, c.summarizeResource k r numAlive = .ok s → c.ByHosts k r s) ∧
      ((c.brokers.map (·.host)).Nodup →
        c.summarizeResource k r numAlive = c.summarizeBy (own r) k r numAlive) := by
  refine ⟨fun s h => ?_, fun hnodup => summarizeResource_apart hr hnodup k numAlive⟩
  obtain ⟨hmaximum, hminimum⟩ := extremes_of_summarizeResource h
  have hplain : ∀ x ∈ c.aliveBrokers.map (fun b => (c.measured r b).1), NotMinusZero x := by
    refine List.forall_mem_map.mpr fun b _ => ?_
    rw [measured_of_shared hr]
    exact notMinusZero_compensatedSum _
  refine ⟨balanced_of_summarizeResource h, fun host hhost b hb halive =>
    (countsAsBalanced_of_host hr h hhost hb halive).2, balanced_eq_sum_hosts hr h, ?_, ?_, ?_⟩
  · intro host hhost
    obtain ⟨hmem, hany⟩ := List.mem_filter.mp hhost
    obtain ⟨b, hb, halive⟩ := List.any_eq_true.mp hany
    exact (countsAsBalanced_of_host hr h hmem hb halive).1
  · exact hmaximum.trans (foldl_larger_eq (mem_measured_iff hr) hplain)
  · exact hminimum.trans (foldl_smaller_eq (mem_measured_iff hr) hplain)

/-- The ailing cluster with a host for each of its brokers. -/
def parted : Cluster Float :=
  { ailing with
    brokers := ailing.brokers.map fun b => { b with host := Broker.defaultHost (toString b.id) } }

/-- The alive brokers of the ailing cluster run on one of its two hosts, and both are balanced. On
hosts of their own they are read alike. -/
theorem summarizeResource_byHosts_ailing :
    (∃ s, ailing.summarizeResource Constraint.default .cpu (.count 2) = .ok s ∧
      ailing.ByHosts Constraint.default .cpu s ∧ s.balanced = 2 ∧ ailing.hosts.length = 2 ∧
        ailing.liveHosts.map (·.name) = ["a"]) ∧
      (parted.brokers.map (·.host)).Nodup ∧
        parted.summarizeResource Constraint.default .cpu (.count 2) =
          parted.summarizeBy (own .cpu) Constraint.default .cpu (.count 2) := by
  have hcpu : Resource.cpu.isShared = true := rfl
  have hapart : (parted.brokers.map (·.host)).Nodup := by decide +kernel
  obtain ⟨s, hs⟩ : ∃ s, ailing.summarizeResource Constraint.default .cpu (.count 2) = .ok s :=
    exists_eq_ok_of_isOk (by decide +kernel)
  have hbalanced : (ailing.summarizeResource Constraint.default .cpu (.count 2)).toOption.map
      (·.balanced) = some 2 := by decide +kernel
  rw [hs] at hbalanced
  refine ⟨⟨s, hs, ?_, Option.some.inj hbalanced, by decide +kernel, by decide +kernel⟩, hapart, ?_⟩
  · exact (summarizeResource_byHosts ailing Constraint.default (.count 2) hcpu).1 s hs
  · exact (summarizeResource_byHosts parted Constraint.default (.count 2) hcpu).2 hapart

end Cluster

end ClusterBalance
