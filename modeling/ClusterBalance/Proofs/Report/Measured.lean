import ClusterBalance.Proofs.Chain
import ClusterBalance.Report

/-! What a report consists of. Main statements: each figure of the report of a cluster is that of
the summary it belongs to; the extremes of a summary are those of what is measured of the alive
brokers, and its number of accepted brokers counts those of them whose share of their capacity is
accepted. -/

namespace ClusterBalance

variable {α : Type} [Scalar α]

/-- Whether there is a share that is used of a capacity, and it is accepted. -/
def acceptsShare (accepts : α → Bool) (used capacity : α) : Bool :=
  !Scalar.isZero capacity && accepts (used / capacity)

namespace Cluster

/-- Whether a broker counts as balanced for a resource under a constraint. -/
def countsAsBalanced (c : Cluster α) (k : Constraint α) (r : Resource) (b : Broker α) : Bool :=
  match c.usedFraction r with
  | .ok average =>
    acceptsShare (Band.around average (k.percentage.get r)).contains (c.measured r b).1
      (c.measured r b).2
  | .error _ => false

/-- Whether the potential outbound load of a broker counts as under the threshold. -/
def countsAsUnderThreshold (c : Cluster α) (k : Constraint α) (b : Broker α) : Bool :=
  acceptsShare (fun x => x ≤ k.threshold.get .networkOut) (c.potentialOut b)
    (b.capacity.get .networkOut)

end Cluster

section Readings

variable {quantity : Quantity} {fraction used capacity total : α} {accepts : α → Bool}
  {numAlive : Divisor α} {spread : Spread α α}

theorem parts_of_make {reading : BrokerReading α}
    (h : BrokerReading.make quantity fraction accepts used capacity = .ok reading) :
    ∃ share square, divide quantity used capacity = .ok share ∧
      StatsError.lift (Scalar.square? (used - fraction * capacity)) = .ok square ∧
      reading = ⟨used, accepts share, square⟩ := by
  obtain ⟨words, -, h⟩ := bind_eq_ok_iff.mp h
  obtain ⟨share, hshare, h⟩ := bind_eq_ok_iff.mp h
  obtain ⟨square, hsquare, h⟩ := bind_eq_ok_iff.mp h
  cases h
  exact ⟨share, square, hshare, hsquare, rfl⟩

/-- A reading holds what was used, and whether its share of the capacity is accepted. -/
theorem reading_of_make {reading : BrokerReading α}
    (h : BrokerReading.make quantity fraction accepts used capacity = .ok reading) :
    reading.used = used ∧
      ∃ share, divide quantity used capacity = .ok share ∧ reading.accepted = accepts share := by
  obtain ⟨share, square, hshare, -, rfl⟩ := parts_of_make h
  exact ⟨rfl, share, hshare, rfl⟩

theorem parts_of_spread {readings : List (BrokerReading α)}
    (h : spreadOfReadings total numAlive readings = .ok spread) :
    numAlive.divide .aliveBrokers total = .ok spread.average ∧
      spread.maximum = greatestUse readings ∧ spread.minimum = leastUse readings := by
  obtain ⟨average, haverage, h⟩ := bind_eq_ok_iff.mp h
  obtain ⟨meanSquare, -, h⟩ := bind_eq_ok_iff.mp h
  obtain ⟨deviation, -, h⟩ := bind_eq_ok_iff.mp h
  cases h
  exact ⟨haverage, rfl, rfl⟩

section Brokers

variable {brokers : List (Broker α)} {readings : List (BrokerReading α)}
  {name : Broker α → Quantity} (use : Broker α → α × α)

/-- What some brokers use, read one after the other. -/
theorem map_used_of_readings
    (h : brokers.mapM (fun b =>
      BrokerReading.make (name b) fraction accepts (use b).1 (use b).2) = .ok readings) :
    readings.map (·.used) = brokers.map fun b => (use b).1 :=
  map_eq_of_mapM_eq_ok h fun _ _ _ hb => (reading_of_make hb).1

theorem accepted_of_make {reading : BrokerReading α}
    (h : BrokerReading.make quantity fraction accepts used capacity = .ok reading) :
    reading.accepted = acceptsShare accepts used capacity := by
  obtain ⟨-, share, hshare, haccepted⟩ := reading_of_make h
  unfold divide at hshare
  split at hshare
  case isTrue => cases hshare
  case isFalse hzero =>
    cases hshare
    rw [haccepted, acceptsShare, Bool.not_eq_true _ |>.mp hzero, Bool.not_false, Bool.true_and]

theorem numAccepted_of_readings
    (h : brokers.mapM (fun b =>
      BrokerReading.make (name b) fraction accepts (use b).1 (use b).2) = .ok readings) :
    numAccepted readings =
      brokers.countP fun b => acceptsShare accepts (use b).1 (use b).2 := by
  have haccepted := map_eq_of_mapM_eq_ok (g := fun reading => reading.accepted) h
    fun _ _ _ hb => accepted_of_make hb
  have hcount (reading : BrokerReading α) : reading.accepted = (id ∘ (·.accepted)) reading := rfl
  rw [numAccepted, funext hcount, ← List.countP_map, haccepted, List.countP_map]
  rfl

end Brokers

end Readings

namespace Cluster

variable {c : Cluster α} {k : Constraint α} {numAlive : Divisor α}

theorem parts_of_summarizeResource {r : Resource} {s : ResourceSummary α}
    (h : c.summarizeResource k r numAlive = .ok s) :
    ∃ average readings, c.usedFraction r = .ok average ∧
      c.aliveBrokers.mapM (c.utilizationReading r average
        (Band.around average (k.percentage.get r))) = .ok readings ∧
      spreadOfReadings (c.load.get r) numAlive readings = .ok s.spread ∧
      s.balanced = numAccepted readings := by
  obtain ⟨average, haverage, h⟩ := bind_eq_ok_iff.mp h
  obtain ⟨readings, hreadings, h⟩ := bind_eq_ok_iff.mp h
  obtain ⟨spread, hspread, h⟩ := bind_eq_ok_iff.mp h
  cases h
  exact ⟨average, readings, haverage, hreadings, hspread, rfl⟩

theorem band_of_summarizeResource {r : Resource} {s : ResourceSummary α}
    (h : c.summarizeResource k r numAlive = .ok s) :
    c.usedFraction r = .ok s.averageFraction ∧
      s.band = Band.around s.averageFraction (k.percentage.get r) := by
  obtain ⟨average, haverage, h⟩ := bind_eq_ok_iff.mp h
  obtain ⟨readings, -, h⟩ := bind_eq_ok_iff.mp h
  obtain ⟨spread, -, h⟩ := bind_eq_ok_iff.mp h
  cases h
  exact ⟨haverage, rfl⟩

theorem parts_of_summarizePotential {s : PotentialSummary α}
    (h : c.summarizePotential k numAlive = .ok s) :
    ∃ average readings,
      divide (.clusterCapacity .networkOut) c.totalPotentialOut (c.capacity.get .networkOut) =
        .ok average ∧
      c.aliveBrokers.mapM (c.potentialReading average (k.threshold.get .networkOut)) =
        .ok readings ∧
      spreadOfReadings c.totalPotentialOut numAlive readings = .ok s.spread ∧
      s.underThreshold = numAccepted readings := by
  obtain ⟨average, haverage, h⟩ := bind_eq_ok_iff.mp h
  obtain ⟨readings, hreadings, h⟩ := bind_eq_ok_iff.mp h
  obtain ⟨spread, hspread, h⟩ := bind_eq_ok_iff.mp h
  cases h
  exact ⟨average, readings, haverage, hreadings, hspread, rfl⟩

theorem extremes_of_summarizeResource {r : Resource} {s : ResourceSummary α}
    (h : c.summarizeResource k r numAlive = .ok s) :
    s.spread.maximum = (c.aliveBrokers.map fun b => (c.measured r b).1).foldl Scalar.larger 0 ∧
      s.spread.minimum =
        (c.aliveBrokers.map fun b => (c.measured r b).1).foldl Scalar.smaller Scalar.largest := by
  obtain ⟨average, readings, -, hreadings, hspread, -⟩ := parts_of_summarizeResource h
  obtain ⟨-, hmaximum, hminimum⟩ := parts_of_spread hspread
  rw [hmaximum, hminimum, greatestUse, leastUse, map_used_of_readings (c.measured r) hreadings]
  exact ⟨rfl, rfl⟩

theorem extremes_of_summarizePotential {s : PotentialSummary α}
    (h : c.summarizePotential k numAlive = .ok s) :
    s.spread.maximum = (c.aliveBrokers.map c.potentialOut).foldl Scalar.larger 0 ∧
      s.spread.minimum =
        (c.aliveBrokers.map c.potentialOut).foldl Scalar.smaller Scalar.largest := by
  obtain ⟨average, readings, -, hreadings, hspread, -⟩ := parts_of_summarizePotential h
  obtain ⟨-, hmaximum, hminimum⟩ := parts_of_spread hspread
  have hused :=
    map_used_of_readings (fun b => (c.potentialOut b, b.capacity.get .networkOut)) hreadings
  rw [hmaximum, hminimum, greatestUse, leastUse, hused]
  exact ⟨rfl, rfl⟩

theorem balanced_of_summarizeResource {r : Resource} {s : ResourceSummary α}
    (h : c.summarizeResource k r numAlive = .ok s) :
    s.balanced = c.aliveBrokers.countP (c.countsAsBalanced k r) := by
  obtain ⟨average, readings, haverage, hreadings, -, hbalanced⟩ := parts_of_summarizeResource h
  have hcounts (b : Broker α) : c.countsAsBalanced k r b =
      acceptsShare (Band.around average (k.percentage.get r)).contains (c.measured r b).1
        (c.measured r b).2 := by
    rw [countsAsBalanced, haverage]
  rw [hbalanced, funext hcounts]
  exact numAccepted_of_readings (c.measured r) hreadings

theorem underThreshold_of_summarizePotential {s : PotentialSummary α}
    (h : c.summarizePotential k numAlive = .ok s) :
    s.underThreshold = c.aliveBrokers.countP (c.countsAsUnderThreshold k) := by
  obtain ⟨average, readings, -, hreadings, -, hunderThreshold⟩ := parts_of_summarizePotential h
  rw [hunderThreshold]
  exact numAccepted_of_readings (fun b => (c.potentialOut b, b.capacity.get .networkOut)) hreadings

theorem extremes_of_summarizeCounts {count : Broker α → Nat} {s : Spread α Nat}
    (h : c.summarizeCounts count numAlive = .ok s) :
    s.maximum = greatestCount (c.brokers.map count) ∧
      s.minimum = leastCount (c.brokers.map count) := by
  obtain ⟨average, -, h⟩ := bind_eq_ok_iff.mp h
  obtain ⟨deviation, -, h⟩ := bind_eq_ok_iff.mp h
  cases h
  exact ⟨rfl, rfl⟩

theorem parts_of_summarizeTopic {topic : LooseText} {s : Spread α Nat}
    (h : c.summarizeTopic numAlive topic = .ok s) :
    numAlive.divideCount .aliveBrokers
        (totalCount (c.aliveBrokers.map (·.numReplicasOf topic))) = .ok s.average ∧
      s.maximum = greatestCount (c.brokers.map (·.numReplicasOf topic)) ∧
      s.minimum = leastCount (c.brokers.map (·.numReplicasOf topic)) ∧
      countDeviation s.average numAlive (c.aliveBrokers.map (·.numReplicasOf topic)) =
        .ok s.deviation := by
  obtain ⟨average, haverage, h⟩ := bind_eq_ok_iff.mp h
  obtain ⟨deviation, hdeviation, h⟩ := bind_eq_ok_iff.mp h
  cases h
  exact ⟨haverage, rfl, rfl, hdeviation⟩

theorem parts_of_summarizeTopics {s : Spread α Nat} (h : c.summarizeTopics numAlive = .ok s) :
    ∃ spreads, c.topics.mapM (c.summarizeTopic numAlive) = .ok spreads ∧
      divideByCount .topics (Scalar.sum (spreads.map (·.average))) c.topics.length =
        .ok s.average ∧
      s.maximum = greatestCount (spreads.map (·.maximum)) ∧
      s.minimum = leastCount (spreads.map (·.minimum)) ∧
      divideByCount .topics (Scalar.sum (spreads.map (·.deviation))) c.topics.length =
        .ok s.deviation := by
  obtain ⟨spreads, hspreads, h⟩ := bind_eq_ok_iff.mp h
  obtain ⟨average, haverage, h⟩ := bind_eq_ok_iff.mp h
  obtain ⟨deviation, hdeviation, h⟩ := bind_eq_ok_iff.mp h
  cases h
  exact ⟨spreads, hspreads, haverage, rfl, rfl, hdeviation⟩

/-- The extremes over the topics are those of the extremes of each. -/
theorem extremes_of_summarizeTopics {s : Spread α Nat}
    (h : c.summarizeTopics numAlive = .ok s) :
    s.maximum = greatestCount
        (c.topics.map fun topic => greatestCount (c.brokers.map (·.numReplicasOf topic))) ∧
      s.minimum = leastCount
        (c.topics.map fun topic => leastCount (c.brokers.map (·.numReplicasOf topic))) := by
  obtain ⟨spreads, hspreads, -, hmaximum, hminimum, -⟩ := parts_of_summarizeTopics h
  have hmaxima := map_eq_of_mapM_eq_ok hspreads fun _ _ _ hs => (parts_of_summarizeTopic hs).2.1
  have hminima := map_eq_of_mapM_eq_ok hspreads fun _ _ _ hs => (parts_of_summarizeTopic hs).2.2.1
  rw [hmaximum, hminimum, hmaxima, hminima]
  exact ⟨rfl, rfl⟩

theorem topics_ne_nil_of_summarizeTopics {s : Spread α Nat}
    (h : c.summarizeTopics numAlive = .ok s) : c.topics ≠ [] := by
  intro hnone
  obtain ⟨spreads, -, haverage, -⟩ := parts_of_summarizeTopics h
  rw [hnone] at haverage
  cases haverage

/-- The figures of a report are those of the summaries of its cluster. -/
structure Measured (c : Cluster α) (k : Constraint α) (report : Report α) : Prop where
  alive : c.aliveBrokers ≠ []
  resource : ∀ r, ∃ s, c.summarizeResource k r (.count c.aliveBrokers.length) = .ok s ∧
    report.utilization.get r = s.spread ∧ report.balanced.get r = s.balanced
  potential : ∃ s, c.summarizePotential k (.count c.aliveBrokers.length) = .ok s ∧
    report.potentialOut = s.spread ∧ report.underThreshold = s.underThreshold
  replicas : c.summarizeCounts (·.numReplicas) (.count c.aliveBrokers.length) =
    .ok report.replicas
  leaders : c.summarizeCounts (·.numLeaders) (.count c.aliveBrokers.length) = .ok report.leaders
  topics : c.summarizeTopics (.count c.aliveBrokers.length) = .ok report.topics
  numBrokers : report.numBrokers = c.brokers.length
  numAlive : report.numAlive = c.aliveBrokers.length
  numReplicas : report.numReplicas = c.distribution.numReplicas
  numTopics : report.numTopics = c.topics.length
  partitionsToHeal : report.partitionsToHeal = c.distribution.partitionsToHeal

theorem measured_of_measure {report : Report α} (h : c.measure k = .ok report) :
    c.Measured k report := by
  unfold measure at h
  by_cases halive : c.aliveBrokers.length = 0
  · rw [if_pos halive] at h
    cases h
  rw [if_neg halive] at h
  obtain ⟨summaries, hsummaries, h⟩ := bind_eq_ok_iff.mp h
  obtain ⟨potential, hpotential, h⟩ := bind_eq_ok_iff.mp h
  obtain ⟨replicas, hreplicas, h⟩ := bind_eq_ok_iff.mp h
  obtain ⟨leaders, hleaders, h⟩ := bind_eq_ok_iff.mp h
  obtain ⟨topics, htopics, h⟩ := bind_eq_ok_iff.mp h
  cases h
  refine ⟨fun hnone => halive (congrArg List.length hnone), fun r => ?_,
    ⟨potential, hpotential, rfl, rfl⟩, hreplicas, hleaders, htopics, rfl, rfl, rfl, rfl, rfl⟩
  refine ⟨summaries.get r, PerResource.ofFnM_eq_ok_iff.mp hsummaries r, ?_, ?_⟩
  · exact PerResource.get_map ..
  · exact PerResource.get_map ..

/-- The matrix of a report has a row for each alive broker. -/
theorem loadMatrix_of_measure {report : Report α} (h : c.measure k = .ok report) :
    report.loadMatrix = c.loadMatrix := by
  unfold measure at h
  by_cases halive : c.aliveBrokers.length = 0
  · rw [if_pos halive] at h
    cases h
  rw [if_neg halive] at h
  obtain ⟨summaries, -, h⟩ := bind_eq_ok_iff.mp h
  obtain ⟨potential, -, h⟩ := bind_eq_ok_iff.mp h
  obtain ⟨replicas, -, h⟩ := bind_eq_ok_iff.mp h
  obtain ⟨leaders, -, h⟩ := bind_eq_ok_iff.mp h
  obtain ⟨topics, -, h⟩ := bind_eq_ok_iff.mp h
  cases h
  rfl

end Cluster

end ClusterBalance
