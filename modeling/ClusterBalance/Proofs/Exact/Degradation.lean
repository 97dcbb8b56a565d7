import Mathlib
import ClusterBalance.Proofs.Cluster.Degradation
import ClusterBalance.Proofs.Cluster.Leadership
import ClusterBalance.Proofs.Exact.Conservation

/-! Failures and the report. Main statement: failures change neither what a cluster answers about
its replicas, loads, hosts and leaders nor the extremes of the counts in its report; in exact
arithmetic they change an average only as they change the number of alive brokers that it divides
by. -/

namespace ClusterBalance

/-- Two reports with the same extremes of the counts of replicas, of leaders and of the replicas of
each topic. -/
structure Report.SameExtremes {α : Type} (r r' : Report α) : Prop where
  replicas : r.replicas.maximum = r'.replicas.maximum ∧ r.replicas.minimum = r'.replicas.minimum
  leaders : r.leaders.maximum = r'.leaders.maximum ∧ r.leaders.minimum = r'.leaders.minimum
  topics : r.topics.maximum = r'.topics.maximum ∧ r.topics.minimum = r'.topics.minimum

namespace Cluster

section Extremes

variable {α : Type} [Scalar α] {c c' : Cluster α} {k k' : Constraint α} {report report' : Report α}

/-- The extremes of a count are those over all brokers, dead ones included. -/
theorem Degraded.extremes_of_summarizeCounts (h : c.Degraded c') {count : Broker α → Nat}
    (hcount : ∀ b b', b.Matches id b' → count b = count b') {n n' : Divisor α} {s s' : Spread α Nat}
    (hs : c.summarizeCounts count n = .ok s) (hs' : c'.summarizeCounts count n' = .ok s') :
    s.maximum = s'.maximum ∧ s.minimum = s'.minimum := by
  obtain ⟨hmaximum, hminimum⟩ := Cluster.extremes_of_summarizeCounts hs
  obtain ⟨hmaximum', hminimum'⟩ := Cluster.extremes_of_summarizeCounts hs'
  rw [hmaximum, hminimum, hmaximum', hminimum', h.map_count hcount]
  exact ⟨rfl, rfl⟩

theorem Degraded.extremes_of_summarizeTopics (h : c.Degraded c') {n n' : Divisor α}
    {s s' : Spread α Nat} (hs : c.summarizeTopics n = .ok s)
    (hs' : c'.summarizeTopics n' = .ok s') :
    s.maximum = s'.maximum ∧ s.minimum = s'.minimum := by
  obtain ⟨hmaximum, hminimum⟩ := Cluster.extremes_of_summarizeTopics hs
  obtain ⟨hmaximum', hminimum'⟩ := Cluster.extremes_of_summarizeTopics hs'
  have htopic (topic : LooseText) := h.map_count fun _ _ hb => hb.numReplicasOf topic
  simp only [hmaximum, hminimum, hmaximum', hminimum', h.matched.topics, htopic, and_self]

theorem Degraded.sameExtremes (h : c.Degraded c') (hreport : c.measure k = .ok report)
    (hreport' : c'.measure k' = .ok report') : report.SameExtremes report' := by
  have hmeasured := measured_of_measure hreport
  have hmeasured' := measured_of_measure hreport'
  exact
    { replicas := h.extremes_of_summarizeCounts (fun _ _ hb => hb.numReplicas) hmeasured.replicas
        hmeasured'.replicas
      leaders := h.extremes_of_summarizeCounts (fun _ _ hb => hb.numLeaders) hmeasured.leaders
        hmeasured'.leaders
      topics := h.extremes_of_summarizeTopics hmeasured.topics hmeasured'.topics }

end Extremes

section Totals

variable {c c' : Cluster ℝ} {k k' : Constraint ℝ} {report report' : Report ℝ}

/-- What the averages of two reports divide by the number of alive brokers is the same. -/
structure SameTotals (c c' : Cluster ℝ) (report report' : Report ℝ) : Prop where
  utilization : ∀ r, (report.utilization.get r).average * c.aliveBrokers.length =
    (report'.utilization.get r).average * c'.aliveBrokers.length
  replicas : report.replicas.average * c.aliveBrokers.length =
    report'.replicas.average * c'.aliveBrokers.length
  leaders : report.leaders.average * c.aliveBrokers.length =
    report'.leaders.average * c'.aliveBrokers.length

theorem average_mul_length_of_summarizeCounts (halive : c.aliveBrokers ≠ [])
    {count : Broker ℝ → Nat} {s : Spread ℝ Nat}
    (h : c.summarizeCounts count (.count c.aliveBrokers.length) = .ok s) :
    s.average * c.aliveBrokers.length = totalCount (c.brokers.map count) := by
  rw [Exact.summarizeCounts_eq halive] at h
  cases h
  exact div_mul_cancel₀ _ (Exact.length_pos_real halive).ne'

theorem Degraded.sameTotals (h : c.Degraded c') (hreport : c.measure k = .ok report)
    (hreport' : c'.measure k' = .ok report') : c.SameTotals c' report report' := by
  have hmeasured := measured_of_measure hreport
  have hmeasured' := measured_of_measure hreport'
  refine ⟨fun r => ?_, ?_, ?_⟩
  · rw [average_mul_length hreport, average_mul_length hreport', h.frame.load]
  · rw [average_mul_length_of_summarizeCounts hmeasured.alive hmeasured.replicas,
      average_mul_length_of_summarizeCounts hmeasured'.alive hmeasured'.replicas,
      h.map_count fun _ _ hb => hb.numReplicas]
  · rw [average_mul_length_of_summarizeCounts hmeasured.alive hmeasured.leaders,
      average_mul_length_of_summarizeCounts hmeasured'.alive hmeasured'.leaders,
      h.map_count fun _ _ hb => hb.numLeaders]

end Totals

/-- Failures leave a cluster accepted; what it answers about replicas, topics, loads, capacities,
hosts and leaders stays as it was, on doubles as they round, and so do the extremes of the counts in
its report. In exact arithmetic each average is of the same total as before. -/
theorem degraded_frame :
    (∀ (α : Type) [Scalar α] (c c' : Cluster α), c.Accepted → c.Degraded c' →
      c'.Accepted ∧ c.Frame c' ∧ ∀ k k' report report', c.measure k = .ok report →
        c'.measure k' = .ok report' → report.SameExtremes report') ∧
    ∀ (c c' : Cluster ℝ) (k k' : Constraint ℝ) (report report' : Report ℝ), c.Degraded c' →
      c.measure k = .ok report → c'.measure k' = .ok report' →
        c.SameTotals c' report report' :=
  ⟨fun _ _ _ _ hc h => ⟨h.accepted hc, h.frame, fun _ _ _ _ => h.sameExtremes⟩,
    fun _ _ _ _ _ _ h => h.sameTotals⟩

theorem restored_bereft_measurable : bereft.restored.Measurable := by
  refine measurable_of_capacity_pos (restored_accepted bereft_accepted)
    ⟨(loaded 0 "a" 1).restored, List.mem_cons_self, rfl⟩
    (List.forall_mem_map.mpr fun b hb _ => ?_)
    ⟨(loaded 0 "a" 1).restored, List.mem_cons_self, List.cons_ne_nil _ _⟩
  rcases (by simpa [bereft] using hb) with rfl | rfl | rfl <;> exact capacity_pos_of_eq rfl

theorem restored_bereft_idsWritten : bereft.restored.IdsWritten :=
  idsWritten_of_lt_ten (by simp [restored, Broker.restored, bereft, loaded])

/-- The ailing cluster and the bereft one came from clusters without failures, which had more alive
brokers and fewer replicas to heal. -/
theorem degraded_frame_ailing_bereft :
    (ailing.restored.Accepted ∧ ailing.restored.Degraded ailing ∧
      ailing.restored.Frame ailing ∧ ailing.restored.distribution = ⟨3, 0⟩ ∧
      ailing.distribution = ⟨3, 2⟩ ∧
      ∃ report report', ailing.restored.measure Constraint.default = .ok report ∧
        ailing.measure Constraint.default = .ok report' ∧ report.SameExtremes report') ∧
    bereft.restored.Degraded bereft ∧ bereft.restored.aliveBrokers.length = 3 ∧
      bereft.aliveBrokers.length = 2 ∧
      ∃ report report', bereft.restored.measure (uniform 2 1) = .ok report ∧
        bereft.measure (uniform 2 1) = .ok report' ∧
        bereft.restored.SameTotals bereft report report' := by
  constructor
  · obtain ⟨report, hreport⟩ : ∃ report, ailing.restored.measure Constraint.default = .ok report :=
      exists_eq_ok_of_isOk (by decide +kernel)
    obtain ⟨report', hreport'⟩ : ∃ report, ailing.measure Constraint.default = .ok report :=
      exists_eq_ok_of_isOk (by decide +kernel)
    have haccepted := restored_accepted ailing_accepted
    obtain ⟨-, hframe, hextremes⟩ :=
      degraded_frame.1 Float _ _ haccepted ailing.restored_degraded
    exact ⟨haccepted, ailing.restored_degraded, hframe, by decide +kernel, by decide +kernel,
      report, report', hreport, hreport', hextremes _ _ _ _ hreport hreport'⟩
  · obtain ⟨report, hreport⟩ := measure_of_measurable (restored_accepted bereft_accepted)
      restored_bereft_measurable restored_bereft_idsWritten (uniform 2 1)
    obtain ⟨report', hreport'⟩ := measure_of_measurable bereft_accepted bereft_measurable
      bereft_idsWritten (uniform 2 1)
    exact ⟨bereft.restored_degraded, rfl, rfl, report, report', hreport, hreport',
      degraded_frame.2 _ _ _ _ _ _ bereft.restored_degraded hreport hreport'⟩

end Cluster

end ClusterBalance
