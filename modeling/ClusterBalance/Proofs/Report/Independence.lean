import ClusterBalance.Proofs.Alike
import ClusterBalance.Proofs.Report.WriteOnce
import ClusterBalance.Report.Render

/-! What a report owes to its constraint. Main statement: under any two constraints a cluster is
refused for the same reason, or has two reports that differ only in the constraint itself and in
the numbers of brokers that it accepts. No law of arithmetic is used, so this holds of the doubles
as they round. -/

namespace ClusterBalance

variable {α : Type}

/-- Two readings of one broker, which may differ in whether they are accepted. -/
structure BrokerReading.SameUse (x y : BrokerReading α) : Prop where
  used : x.used = y.used
  squaredDeviation : x.squaredDeviation = y.squaredDeviation

/-- Two reports that differ at most in what their constraints decide. -/
def Report.SameFigures (r s : Report α) : Prop :=
  { r with balanced := s.balanced, underThreshold := s.underThreshold, constraint := s.constraint }
    = s

/-- A published state without what the constraint decides. -/
def Publication.withoutConstraint (p : Publication α) : Publication α :=
  { p with balanced := none, underThreshold := 0, constraint := none }

section Steps

variable [Scalar α]

theorem reading_alike (q : Quantity) (fraction : α) (accepts accepts' : α → Bool)
    (used capacity : α) :
    Alike BrokerReading.SameUse (BrokerReading.make q fraction accepts used capacity)
      (BrokerReading.make q fraction accepts' used capacity) := by
  apply Alike.bind_same
  intro words
  apply Alike.bind_same
  intro share
  apply Alike.bind_same
  intro square
  exact .given ⟨rfl, rfl⟩

/-- The statistics of readings do not ask which of them were accepted. -/
theorem spreadOfReadings_eq (total : α) (numAlive : Divisor α) {xs ys : List (BrokerReading α)}
    (h : List.Forall₂ BrokerReading.SameUse xs ys) :
    spreadOfReadings total numAlive xs = spreadOfReadings total numAlive ys := by
  have hused := map_eq_of_forall₂ h fun _ _ hxy => hxy.used
  have hsquares := map_eq_of_forall₂ h fun _ _ hxy => hxy.squaredDeviation
  simp only [spreadOfReadings, greatestUse, leastUse, hused, hsquares]

namespace Cluster

variable (c : Cluster α) (k k' : Constraint α)

theorem summarizeResource_alike (r : Resource) (numAlive : Divisor α) :
    Alike (fun x y => x.spread = y.spread) (c.summarizeResource k r numAlive)
      (c.summarizeResource k' r numAlive) := by
  -- the average is computed before the band, and the readings only ask the band for acceptance
  apply Alike.bind_same
  intro average
  have hreadings := Alike.mapM fun (b : Broker α) (_ : b ∈ c.aliveBrokers) =>
    reading_alike (.brokerCapacity r b.id) average
      (Band.around average (k.percentage.get r)).contains
      (Band.around average (k'.percentage.get r)).contains (c.measured r b).1 (c.measured r b).2
  apply hreadings.bind
  intro readings readings' hsame
  rw [spreadOfReadings_eq _ _ hsame]
  apply Alike.bind_same
  intro spread
  exact .given rfl

theorem summarizePotential_alike (numAlive : Divisor α) :
    Alike (fun x y => x.spread = y.spread) (c.summarizePotential k numAlive)
      (c.summarizePotential k' numAlive) := by
  apply Alike.bind_same
  intro average
  have hreadings := Alike.mapM fun (b : Broker α) (_ : b ∈ c.aliveBrokers) =>
    reading_alike (.brokerCapacity .networkOut b.id) average
      (fun x => x ≤ k.threshold.get .networkOut) (fun x => x ≤ k'.threshold.get .networkOut)
      (c.potentialOut b) (b.capacity.get .networkOut)
  apply hreadings.bind
  intro readings readings' hsame
  rw [spreadOfReadings_eq _ _ hsame]
  apply Alike.bind_same
  intro spread
  exact .given rfl

/-- Over any scalars, two constraints lead to the same refusal or to reports of the same
figures. -/
theorem measure_alike : Alike Report.SameFigures (c.measure k) (c.measure k') := by
  simp only [measure]
  by_cases halive : c.aliveBrokers.length = 0
  · rw [if_pos halive, if_pos halive]
    exact .refused _
  rw [if_neg halive, if_neg halive]
  apply (Alike.ofFnM fun r => c.summarizeResource_alike k k' r _).bind
  intro summaries summaries' hsummaries
  apply (c.summarizePotential_alike k k' _).bind
  intro potential potential' hpotential
  apply Alike.bind_same
  intro replicas
  apply Alike.bind_same
  intro leaders
  apply Alike.bind_same
  intro topics
  have hspreads : summaries.map (·.spread) = summaries'.map (·.spread) := by
    apply PerResource.ext_get
    intro r
    rw [PerResource.get_map, PerResource.get_map, hsummaries r]
  refine .given ?_
  simp only [Report.SameFigures, hspreads, hpotential]

end Cluster

end Steps

namespace Report.SameFigures

variable {r s : Report Float}

theorem toJson_eq (h : r.SameFigures s) : r.toJson = s.toJson := by
  rw [← h]
  rfl

theorem toText_eq (h : r.SameFigures s) : r.toText = s.toText := by
  rw [← h]
  rfl

theorem withoutConstraint_eq (h : r.SameFigures s) :
    (Publication.ofReport r).withoutConstraint = (Publication.ofReport s).withoutConstraint := by
  rw [← h]
  rfl

end Report.SameFigures

/-- Two new holders that are asked for the statistics of one cluster, each under its own constraint,
are both refused for the same reason and stay as they were, or both publish a report. Then every
published field that the constraint does not decide is the same in both, and so are the renderings
as JSON and as text. -/
theorem Publication.call_under_two_constraints (c : Cluster Float) (k k' : Constraint Float) :
    (∃ e, ({} : Publication Float).call ⟨c, k⟩ = (.error e, {}) ∧
        ({} : Publication Float).call ⟨c, k'⟩ = (.error e, {})) ∨
      ∃ r r', ({} : Publication Float).call ⟨c, k⟩ = (.ok (), ofReport r) ∧
        ({} : Publication Float).call ⟨c, k'⟩ = (.ok (), ofReport r') ∧
        (ofReport r).withoutConstraint = (ofReport r').withoutConstraint ∧
        r.toJson = r'.toJson ∧ r.toText = r'.toText := by
  have halike := c.measure_alike k k'
  generalize hr : c.measure k = x at halike
  generalize hr' : c.measure k' = y at halike
  cases halike with
  | refused e =>
    left
    refine ⟨e, ?_, ?_⟩
    · rw [call_empty, hr]
    · rw [call_empty, hr']
  | @given r r' h =>
    right
    refine ⟨r, r', ?_, ?_, h.withoutConstraint_eq, h.toJson_eq, h.toText_eq⟩
    · rw [call_empty, hr]
    · rw [call_empty, hr']

end ClusterBalance
