import ClusterBalance.Fault
import ClusterBalance.Proofs.Resource
import ClusterBalance.Proofs.Statistics.Divisors

/-! Which clusters have statistics, in exact arithmetic. Main statement: a cluster has a report
exactly if it has an alive broker, the id of every alive broker has a text, every capacity that one
is measured by is positive, and there is a replica; otherwise the first check to fail decides how
the report is refused, and nothing else can go wrong. -/

namespace ClusterBalance

namespace Cluster

/-- Every capacity that the statistics divide by is positive, some broker is alive, and there is a
replica. -/
structure Measurable (c : Cluster ℝ) : Prop where
  alive : ∃ b ∈ c.brokers, b.alive
  host : ∀ b ∈ c.brokers, b.alive → ∀ r ∈ [Resource.cpu, .networkIn, .networkOut],
    0 < (c.hostOf b).capacity r
  disk : ∀ b ∈ c.brokers, b.alive → 0 < b.capacity.disk
  outbound : ∀ b ∈ c.brokers, b.alive → 0 < b.capacity.networkOut
  replica : ∃ b ∈ c.brokers, b.replicas ≠ []

/-- The ids of the alive brokers have a text. -/
def IdsWritten (c : Cluster ℝ) : Prop := ∀ b ∈ c.brokers, b.alive → b.id < Document.digitLimit

/-- A broker is the alive one with the lowest id of those without a capacity. -/
structure LowestWithout (c : Cluster ℝ) (capacity : Broker ℝ → ℝ) (b : Broker ℝ) : Prop where
  mem : b ∈ c.brokers
  alive : b.alive
  without : capacity b = 0
  lowest : ∀ b' ∈ c.brokers, b'.alive → b'.id < b.id → capacity b' ≠ 0

/-- A broker is the alive one with the lowest id of those whose id has no text, and none before it
is without a capacity. -/
structure LowestUnwritten (c : Cluster ℝ) (capacity : Broker ℝ → ℝ) (b : Broker ℝ) : Prop where
  mem : b ∈ c.brokers
  alive : b.alive
  unwritten : Document.digitLimit ≤ b.id
  lowest : ∀ b' ∈ c.brokers, b'.alive → b'.id < b.id →
    b'.id < Document.digitLimit ∧ capacity b' ≠ 0

/-- A resource can be summarized: the ids of the alive brokers have a text, and neither the cluster
nor what is measured of an alive broker is without capacity. -/
structure Provides (c : Cluster ℝ) (r : Resource) : Prop where
  whole : c.capacity.get r ≠ 0
  each : ∀ b ∈ c.brokers, b.alive → b.id < Document.digitLimit ∧ (c.measured r b).2 ≠ 0

/-- The first check that fails, in the order of the checks: the class of the error, and the words
for the divisor where it is zero. -/
inductive FirstFailure (c : Cluster ℝ) : ErrorClass → Option String → Prop
  | aliveBrokers (h : ∀ b ∈ c.brokers, ¬b.alive) :
      c.FirstFailure .degenerateCluster (some "alive broker count")
  | clusterCapacity (r : Resource) (halive : ∃ b ∈ c.brokers, b.alive)
      (hbefore : ∀ r' ∈ r.before, c.Provides r') (h : c.capacity.get r = 0) :
      c.FirstFailure .degenerateCluster (some ("cluster " ++ r.wireName ++ " capacity"))
  | brokerCapacity (r : Resource) (b : Broker ℝ) (hbefore : ∀ r' ∈ r.before, c.Provides r')
      (hwhole : c.capacity.get r ≠ 0) (hid : b.id < Document.digitLimit)
      (h : c.LowestWithout (fun b => (c.measured r b).2) b) :
      c.FirstFailure .degenerateCluster
        (some (r.wireName ++ " capacity of broker " ++ toString b.id))
  | brokerId (r : Resource) (b : Broker ℝ) (hbefore : ∀ r' ∈ r.before, c.Provides r')
      (hwhole : c.capacity.get r ≠ 0) (h : c.LowestUnwritten (fun b => (c.measured r b).2) b) :
      c.FirstFailure .invalidValue none
  | outbound (b : Broker ℝ) (hbefore : ∀ r, c.Provides r)
      (h : c.LowestWithout (fun b => b.capacity.networkOut) b) :
      c.FirstFailure .degenerateCluster
        (some ("networkOutbound capacity of broker " ++ toString b.id))
  | topics (halive : ∃ b ∈ c.brokers, b.alive) (hbefore : ∀ r, c.Provides r)
      (hown : ∀ b ∈ c.brokers, b.alive → b.capacity.networkOut ≠ 0)
      (h : ∀ b ∈ c.brokers, b.replicas = []) :
      c.FirstFailure .degenerateCluster (some "topic count")

variable {c : Cluster ℝ}

theorem length_aliveBrokers_eq_zero_iff :
    c.aliveBrokers.length = 0 ↔ ∀ b ∈ c.brokers, ¬b.alive := by
  rw [List.length_eq_zero_iff, aliveBrokers, List.filter_eq_nil_iff]

theorem length_topics_eq_zero_iff :
    c.topics.length = 0 ↔ ∀ b ∈ c.brokers, b.replicas = [] := by
  have hdups : ∀ xs : List LooseText, xs.eraseDups.length = 0 ↔ xs = [] := by
    intro xs
    cases xs <;> simp [List.eraseDups_cons]
  rw [topics, List.length_mergeSort, hdups, List.map_eq_nil_iff, replicas, List.flatMap_eq_nil_iff]

theorem obstacle?_brokerCapacity_eq_none_iff {r : Resource} {id : Nat} {y : ℝ} :
    (Quantity.brokerCapacity r id).obstacle? y = none ↔ id < Document.digitLimit ∧ y ≠ 0 := by
  rw [Quantity.obstacle?_brokerCapacity]
  split
  case isTrue hid => simp [hid]
  case isFalse hid => simp [hid]

theorem obstacle?_brokerCapacity_eq_some_iff {r : Resource} {id : Nat} {y : ℝ} {e : StatsError} :
    (Quantity.brokerCapacity r id).obstacle? y = some e ↔
      id < Document.digitLimit ∧ y = 0 ∧ .degenerate (.brokerCapacity r id) = e ∨
        Document.digitLimit ≤ id ∧ .tooManyDigits = e := by
  rw [Quantity.obstacle?_brokerCapacity]
  split
  case isTrue hid => simp [hid]
  case isFalse hid => simp [hid, Nat.not_lt.mp hid]

theorem capacityObstacle?_eq_none_iff {r : Resource} {capacity : Broker ℝ → ℝ} :
    c.capacityObstacle? r capacity = none ↔
      ∀ b ∈ c.brokers, b.alive → b.id < Document.digitLimit ∧ capacity b ≠ 0 := by
  rw [capacityObstacle?, List.findSome?_eq_none_iff]
  simp only [aliveBrokers, List.mem_filter, and_imp, obstacle?_brokerCapacity_eq_none_iff]

/-- The broker that is refused is the one with the lowest id. -/
theorem capacityObstacle?_eq_some_iff (hc : c.Accepted) {r : Resource} {capacity : Broker ℝ → ℝ}
    {e : StatsError} :
    c.capacityObstacle? r capacity = some e ↔
      (∃ b, (b.id < Document.digitLimit ∧ c.LowestWithout capacity b) ∧
          .degenerate (.brokerCapacity r b.id) = e) ∨
        (∃ b, c.LowestUnwritten capacity b) ∧ .tooManyDigits = e := by
  rw [capacityObstacle?, aliveBrokers,
    findSome?_eq_some_iff_of_ordered (hc.pairwise_id.filter _)]
  simp only [List.mem_filter, obstacle?_brokerCapacity_eq_some_iff,
    obstacle?_brokerCapacity_eq_none_iff]
  constructor
  · rintro ⟨b, ⟨hb, halive⟩, ⟨hid, hzero, he⟩ | ⟨hid, he⟩, hlow⟩
    · exact .inl ⟨b, ⟨hid, hb, halive, hzero, fun b' hb' ha hlt => (hlow b' ⟨hb', ha⟩ hlt).2⟩, he⟩
    · exact .inr ⟨⟨b, hb, halive, hid, fun b' hb' ha hlt => hlow b' ⟨hb', ha⟩ hlt⟩, he⟩
  · rintro (⟨b, ⟨hid, hlow⟩, he⟩ | ⟨⟨b, hlow⟩, he⟩)
    · refine ⟨b, ⟨hlow.mem, hlow.alive⟩, .inl ⟨hid, hlow.without, he⟩, fun b' hb' hlt => ?_⟩
      exact ⟨hlt.trans hid, hlow.lowest b' hb'.1 hb'.2 hlt⟩
    · refine ⟨b, ⟨hlow.mem, hlow.alive⟩, .inr ⟨hlow.unwritten, he⟩, fun b' hb' hlt => ?_⟩
      exact hlow.lowest b' hb'.1 hb'.2 hlt

theorem resourceObstacle?_eq_none_iff {r : Resource} :
    c.resourceObstacle? r = none ↔ c.Provides r := by
  rw [resourceObstacle?, Option.or_eq_none_iff, capacityObstacle?_eq_none_iff]
  constructor
  · rintro ⟨hwhole, heach⟩
    exact ⟨by simpa using hwhole, heach⟩
  · rintro ⟨hwhole, heach⟩
    exact ⟨if_neg hwhole, heach⟩

theorem resourceObstacle?_eq_some_iff {r : Resource} {e : StatsError} :
    c.resourceObstacle? r = some e ↔
      c.capacity.get r = 0 ∧ .degenerate (.clusterCapacity r) = e ∨
        c.capacity.get r ≠ 0 ∧ c.capacityObstacle? r (fun b => (c.measured r b).2) = some e := by
  rw [resourceObstacle?, Option.or_eq_some_iff]
  simp

theorem findSome?_resourceObstacle?_eq_none_iff :
    Resource.all.findSome? c.resourceObstacle? = none ↔ ∀ r, c.Provides r := by
  simp only [List.findSome?_eq_none_iff, resourceObstacle?_eq_none_iff]
  exact ⟨fun h r => h r (Resource.mem_all r), fun h r _ => h r⟩

/-- The checks that come before the one that decides have passed. -/
theorem obstacle?_eq_some_iff {e : StatsError} :
    c.obstacle? = some e ↔
      (∀ b ∈ c.brokers, ¬b.alive) ∧ .degenerate .aliveBrokers = e ∨
        (∃ b ∈ c.brokers, b.alive) ∧
          ((∃ r, c.resourceObstacle? r = some e ∧ ∀ r' ∈ r.before, c.Provides r') ∨
            (∀ r, c.Provides r) ∧
              (c.capacityObstacle? .networkOut (fun b => b.capacity.networkOut) = some e ∨
                c.capacityObstacle? .networkOut (fun b => b.capacity.networkOut) = none ∧
                  (∀ b ∈ c.brokers, b.replicas = []) ∧ .degenerate .topics = e)) := by
  rw [← length_topics_eq_zero_iff, obstacle?]
  by_cases halive : c.aliveBrokers.length = 0
  · have hno := length_aliveBrokers_eq_zero_iff.mp halive
    rw [if_pos halive]
    simp_all
  · have hsome := mt length_aliveBrokers_eq_zero_iff.mpr halive
    push Not at hsome
    rw [if_neg halive, Option.or_eq_some_iff, Option.or_eq_some_iff,
      findSome?_resourceObstacle?_eq_none_iff, Resource.findSome?_all_eq_some_iff]
    simp only [resourceObstacle?_eq_none_iff]
    simp_all [PerResource.get]

theorem obstacle?_eq_none_iff :
    c.obstacle? = none ↔
      (∃ b ∈ c.brokers, b.alive) ∧ (∀ r, c.Provides r) ∧
        (∀ b ∈ c.brokers, b.alive → b.id < Document.digitLimit ∧ b.capacity.networkOut ≠ 0) ∧
          ∃ b ∈ c.brokers, b.replicas ≠ [] := by
  have htopics : (¬c.topics.length = 0) ↔ ∃ b ∈ c.brokers, b.replicas ≠ [] := by
    rw [length_topics_eq_zero_iff]
    push Not
    rfl
  rw [← htopics, obstacle?]
  by_cases halive : c.aliveBrokers.length = 0
  · have hno := length_aliveBrokers_eq_zero_iff.mp halive
    rw [if_pos halive]
    simp_all
  · have hsome := mt length_aliveBrokers_eq_zero_iff.mpr halive
    push Not at hsome
    rw [if_neg halive, Option.or_eq_none_iff, Option.or_eq_none_iff,
      findSome?_resourceObstacle?_eq_none_iff, capacityObstacle?_eq_none_iff]
    simp_all [PerResource.get]

/-- The first check that fails is the one that is refused. -/
theorem firstFailure_iff (hc : c.Accepted) {cls : ErrorClass} {words : Option String} :
    c.FirstFailure cls words ↔
      ∃ e, c.obstacle? = some e ∧ e.errorClass = cls ∧ e.fault.quantity = words := by
  simp only [obstacle?_eq_some_iff, resourceObstacle?_eq_some_iff, capacityObstacle?_eq_some_iff hc,
    capacityObstacle?_eq_none_iff]
  constructor
  · intro h
    cases h with
    | aliveBrokers h => exact ⟨.degenerate .aliveBrokers, .inl ⟨h, rfl⟩, rfl, rfl⟩
    | clusterCapacity r halive hbefore h =>
      exact ⟨_, .inr ⟨halive, .inl ⟨r, .inl ⟨h, rfl⟩, hbefore⟩⟩, rfl, rfl⟩
    | brokerCapacity r b hbefore hwhole hid h =>
      refine ⟨.degenerate (.brokerCapacity r b.id), .inr ⟨⟨b, h.mem, h.alive⟩, .inl ?_⟩, rfl, rfl⟩
      exact ⟨r, .inr ⟨hwhole, .inl ⟨b, ⟨hid, h⟩, rfl⟩⟩, hbefore⟩
    | brokerId r b hbefore hwhole h =>
      refine ⟨.tooManyDigits, .inr ⟨⟨b, h.mem, h.alive⟩, .inl ?_⟩, rfl, rfl⟩
      exact ⟨r, .inr ⟨hwhole, .inr ⟨⟨b, h⟩, rfl⟩⟩, hbefore⟩
    | outbound b hbefore h =>
      have hid := ((hbefore .cpu).each b h.mem h.alive).1
      refine ⟨.degenerate (.brokerCapacity .networkOut b.id), .inr ⟨⟨b, h.mem, h.alive⟩, ?_⟩,
        rfl, rfl⟩
      exact .inr ⟨hbefore, .inl (.inl ⟨b, ⟨hid, h⟩, rfl⟩)⟩
    | topics halive hbefore hown h =>
      have heach : ∀ b ∈ c.brokers, b.alive →
          b.id < Document.digitLimit ∧ b.capacity.networkOut ≠ 0 := fun b hb ha =>
        ⟨((hbefore .cpu).each b hb ha).1, hown b hb ha⟩
      exact ⟨_, .inr ⟨halive, .inr ⟨hbefore, .inr ⟨heach, h, rfl⟩⟩⟩, rfl, rfl⟩
  · rintro ⟨e, he, rfl, rfl⟩
    rcases he with ⟨h, rfl⟩ | ⟨halive, ⟨r, hr, hbefore⟩ | ⟨hbefore, he⟩⟩
    · exact .aliveBrokers h
    · rcases hr with ⟨h, rfl⟩ | ⟨hwhole, ⟨b, ⟨hid, h⟩, rfl⟩ | ⟨⟨b, h⟩, rfl⟩⟩
      · exact .clusterCapacity r halive hbefore h
      · exact .brokerCapacity r b hbefore hwhole hid h
      · exact .brokerId r b hbefore hwhole h
    · rcases he with (⟨b, ⟨-, h⟩, rfl⟩ | ⟨⟨b, h⟩, rfl⟩) | ⟨hown, h, rfl⟩
      · exact .outbound b hbefore h
      · exact absurd ((hbefore .cpu).each b h.mem h.alive).1 (Nat.not_lt.mpr h.unwritten)
      · exact .topics halive hbefore (fun b hb ha => (hown b hb ha).2) h

/-- Alive brokers that are measured by positive capacities make up a positive capacity of the whole
cluster. -/
theorem provides_of_measured_pos (hc : c.Accepted) {r : Resource}
    (halive : ∃ b ∈ c.brokers, b.alive) (hids : c.IdsWritten)
    (h : ∀ b ∈ c.brokers, b.alive → 0 < (c.measured r b).2) : c.Provides r := by
  obtain ⟨b, hb, hb'⟩ := halive
  have hwhole := lt_of_lt_of_le (h b hb hb') (Exact.measured_le_capacity hc hb r)
  exact ⟨hwhole.ne', fun b hb hb' => ⟨hids b hb hb', (h b hb hb').ne'⟩⟩

/-- A cluster is measurable, with ids that have a text, exactly if there is no obstacle. -/
theorem measurable_iff (hc : c.Accepted) : c.Measurable ∧ c.IdsWritten ↔ c.obstacle? = none := by
  rw [obstacle?_eq_none_iff]
  constructor
  · rintro ⟨h, hids⟩
    refine ⟨h.alive, fun r => ?_, fun b hb hb' => ⟨hids b hb hb', (h.outbound b hb hb').ne'⟩,
      h.replica⟩
    refine provides_of_measured_pos hc h.alive hids fun b hb hb' => ?_
    cases r with
    | disk => exact h.disk b hb hb'
    | cpu => exact h.host b hb hb' .cpu (by simp)
    | networkIn => exact h.host b hb hb' .networkIn (by simp)
    | networkOut => exact h.host b hb hb' .networkOut (by simp)
  · rintro ⟨halive, hprovides, hown, hreplica⟩
    have hpos (r : Resource) (b : Broker ℝ) (hb : b ∈ c.brokers) (hb' : b.alive) :
        0 < (c.measured r b).2 :=
      lt_of_le_of_ne (Exact.measured_nonneg hc hb r) ((hprovides r).each b hb hb').2.symm
    refine ⟨⟨halive, fun b hb hb' r hr => ?_, hpos .disk, fun b hb hb' => ?_, hreplica⟩,
      fun b hb hb' => (hown b hb hb').1⟩
    · rcases r with _ | _ | _ | _
      · exact hpos .cpu b hb hb'
      · exact hpos .networkIn b hb hb'
      · exact hpos .networkOut b hb hb'
      · simp at hr
    · exact lt_of_le_of_ne (Exact.capacity_nonneg hc hb .networkOut) (hown b hb hb').2.symm

/-- The report of an accepted cluster is there exactly if the cluster is measurable and the ids of
its alive brokers have a text, whatever the constraint; otherwise the first check that fails decides
what is said, and no other error is possible. -/
theorem fill_empty_or_firstFailure (hc : c.Accepted) (k : Constraint ℝ) :
    ((∃ s, ReportSlot.empty.fill c k = .ok s) ↔ c.Measurable ∧ c.IdsWritten) ∧
      (¬(c.Measurable ∧ c.IdsWritten) → ∃ e, ReportSlot.empty.fill c k = .error e ∧
        ∀ cls words, c.FirstFailure cls words ↔ e.errorClass = cls ∧ e.fault.quantity = words) := by
  have hfill : FailsFor (ReportSlot.empty.fill c k) c.obstacle? :=
    FailsFor.bind_none (Exact.measure_failsFor c k) fun _ _ => .ok _
  rw [measurable_iff hc]
  cases hobstacle : c.obstacle? with
  | none =>
    rw [hobstacle] at hfill
    exact ⟨⟨fun _ => rfl, fun _ => hfill.exists_eq_ok⟩, fun h => absurd rfl h⟩
  | some e =>
    have herror : ReportSlot.empty.fill c k = .error e := by
      rw [hobstacle] at hfill
      exact hfill.eq_error
    refine ⟨⟨?_, nofun⟩, fun _ => ⟨e, herror, fun cls words => ?_⟩⟩
    · rintro ⟨s, hs⟩
      rw [herror] at hs
      cases hs
    · simp [firstFailure_iff hc, hobstacle]

theorem measure_of_measurable (hc : c.Accepted) (h : c.Measurable) (hids : c.IdsWritten)
    (k : Constraint ℝ) : ∃ report, c.measure k = .ok report := by
  have hfails := Exact.measure_failsFor c k
  rw [(measurable_iff hc).mp ⟨h, hids⟩] at hfails
  exact hfails.exists_eq_ok

/-- Alive brokers that have some of every resource themselves have all that is divided by. -/
theorem measurable_of_capacity_pos (hc : c.Accepted) (halive : ∃ b ∈ c.brokers, b.alive)
    (hcapacity : ∀ b ∈ c.brokers, b.alive → ∀ r, 0 < b.capacity.get r)
    (hreplica : ∃ b ∈ c.brokers, b.replicas ≠ []) : c.Measurable where
  alive := halive
  host := fun b hb hb' r _ =>
    (hcapacity b hb hb' r).trans_le (Exact.capacity_le_hostCapacity hc hb r)
  disk := fun b hb hb' => hcapacity b hb hb' .disk
  outbound := fun b hb hb' => hcapacity b hb hb' .networkOut
  replica := hreplica

theorem idsWritten_of_lt_ten (h : ∀ b ∈ c.brokers, b.id < 10) : c.IdsWritten := fun b hb _ =>
  (h b hb).trans (by decide +kernel)

/-- A broker without outbound capacity. -/
noncomputable def hiddenBroker : Broker ℝ where
  id := 0
  capacity := ⟨1, 1, 0, 1⟩
  replicas := []
  host := "host"
  rack := ""
  alive := true

/-- A cluster whose first broker runs beside one that has outbound capacity. -/
noncomputable def hidingCluster : Cluster ℝ where
  brokers := [hiddenBroker, { hiddenBroker with id := 1, capacity := .replicate 1 }]
  monitoredRatio := 1.0
  windows := 1

theorem hidingCluster_accepted : hidingCluster.Accepted := by
  refine ⟨hidingCluster.brokers, 1.0, 1, fun b hb => ⟨?_, ?_, ?_⟩,
    make_of_ordered (by decide +kernel) ?_ ?_⟩
  · refine Exact.negative?_eq_none_iff.mpr fun r => ?_
    rcases (by simpa [hidingCluster] using hb) with rfl | rfl <;> cases r <;>
      simp [hiddenBroker, PerResource.get, PerResource.replicate, PerResource.ofFn]
  · rcases (by simpa [hidingCluster] using hb) with rfl | rfl <;> simp [hiddenBroker]
  · rcases (by simpa [hidingCluster] using hb) with rfl | rfl <;> simp [hiddenBroker]
  · simp [hidingCluster, hiddenBroker]
  · simp [hidingCluster, hiddenBroker, ledPartitions, Broker.leaders]

/-- The host hides a broker without outbound capacity from the summary of that resource, but not
from the summary of the potential load. -/
theorem fill_empty_hidingCluster : hidingCluster.Accepted ∧
    ∃ q, ReportSlot.empty.fill hidingCluster ⟨.replicate 1, .replicate 1⟩ = .error q ∧
      q.errorClass = .degenerateCluster ∧
      q.fault.quantity = some "networkOutbound capacity of broker 0" := by
  have hout : hidingCluster.LowestWithout (fun b => b.capacity.networkOut) hiddenBroker :=
    ⟨List.mem_cons_self, rfl, rfl, fun _ _ _ hlt => absurd hlt (Nat.not_lt_zero _)⟩
  have hids : hidingCluster.IdsWritten :=
    idsWritten_of_lt_ten (by simp [hidingCluster, hiddenBroker])
  have hprovides (r : Resource) : hidingCluster.Provides r := by
    refine provides_of_measured_pos hidingCluster_accepted ⟨_, hout.mem, rfl⟩ hids fun b hb _ => ?_
    rcases (by simpa [hidingCluster] using hb) with rfl | rfl <;> cases r <;>
      simp [measured, Resource.isShared, Exact.hostCapacity_eq_sum, hidingCluster, hiddenBroker,
        PerResource.get, PerResource.replicate, PerResource.ofFn]
  obtain ⟨-, hfail⟩ := fill_empty_or_firstFailure hidingCluster_accepted
    ⟨.replicate 1, .replicate 1⟩
  obtain ⟨e, he, hfirst⟩ := hfail fun h => (h.1.outbound _ hout.mem rfl).ne' hout.without
  exact ⟨hidingCluster_accepted, e, he, (hfirst _ _).mp (.outbound _ hprovides hout)⟩

/-- A broker whose id has one digit too many for it to have a text. -/
noncomputable def farBroker : Broker ℝ :=
  { hiddenBroker with id := Document.digitLimit, capacity := .replicate 1 }

theorem farBroker_id : farBroker.id = Document.digitLimit := by simp only [farBroker]

/-- A cluster of that broker alone. -/
noncomputable def farCluster : Cluster ℝ where
  brokers := [farBroker]
  monitoredRatio := 1.0
  windows := 1

theorem farCluster_accepted : farCluster.Accepted := by
  have honly : ∀ b ∈ farCluster.brokers, b = farBroker := by simp [farCluster]
  refine ⟨farCluster.brokers, 1.0, 1, fun b hb => ?_, make_of_ordered (by decide +kernel) ?_ ?_⟩
  · rw [honly b hb]
    refine ⟨Exact.negative?_eq_none_iff.mpr fun r => ?_, ?_, ?_⟩
    · cases r <;> simp [farBroker, PerResource.get, PerResource.replicate, PerResource.ofFn]
    · simp [farBroker, hiddenBroker]
    · simp [farBroker, hiddenBroker]
  · simp [farCluster]
  · simp [farCluster, farBroker, hiddenBroker, ledPartitions, Broker.leaders]

/-- The broker has all that is divided by, and there are no topics, which is not what is said. -/
theorem fill_empty_farCluster : farCluster.Accepted ∧
    ∃ e, ReportSlot.empty.fill farCluster ⟨.replicate 1, .replicate 1⟩ = .error e ∧
      e.errorClass = .invalidValue ∧ e.errorClass ≠ .degenerateCluster := by
  have hfar : farCluster.LowestUnwritten (fun b => (farCluster.measured .cpu b).2) farBroker := by
    refine ⟨List.mem_cons_self, rfl, farBroker_id.ge, fun b hb _ hlt => ?_⟩
    obtain rfl := List.mem_singleton.mp hb
    exact absurd hlt (Nat.lt_irrefl _)
  have hwhole : farCluster.capacity.get .cpu ≠ 0 := by
    rw [Exact.capacity_eq_sum]
    simp [farCluster, farBroker, PerResource.get, PerResource.replicate, PerResource.ofFn]
  obtain ⟨-, hfail⟩ := fill_empty_or_firstFailure farCluster_accepted
    ⟨.replicate 1, .replicate 1⟩
  obtain ⟨e, he, hfirst⟩ := hfail fun h =>
    absurd (h.2 _ hfar.mem hfar.alive) (Nat.not_lt.mpr hfar.unwritten)
  have hbefore : ∀ r ∈ Resource.cpu.before, farCluster.Provides r := by
    simp [Resource.before, Resource.all]
  obtain ⟨hclass, -⟩ := (hfirst _ _).mp (.brokerId .cpu _ hbefore hwhole hfar)
  exact ⟨farCluster_accepted, e, he, hclass, by rw [hclass]; decide⟩

end Cluster

end ClusterBalance
