import ClusterBalance.Proofs.Report.Finite
import ClusterBalance.Proofs.Snapshot.Size

/-! What the JSON text of the report of a cluster is read as, where the cluster was read from a text
itself. Main statement: as long as the brokers and the replicas can be counted in a word, which they
can unless the text of the cluster is longer than that, the report is written, and what is read has
all its figures except those that are not finite, for which it has null. So it is the report exactly
if every total, every use and every sum of squares of the resources is finite. -/

namespace ClusterBalance.Cluster

open Decimal Document Document.Json

variable {c : Cluster Float} {k : Constraint Float} {report : Report Float} {file text : String}

section Counts

theorem fitsWord_iff {n : Nat} : FitsWord n ↔ n < 2 ^ 64 := by
  simp only [FitsWord, wordRange]
  omega

theorem length_topics_le (c : Cluster Float) : c.topics.length ≤ c.numReplicas := by
  have hdifferent := encard_le_length (c.replicas.map (·.topic))
  rw [← length_eraseDups_eq_encard, List.length_map] at hdifferent
  rw [numReplicas, totalCount_eq_sum, sum_numReplicas, c.topics_perm.length_eq]
  exact_mod_cast hdifferent

theorem extremes_fit {counts : List Nat} (hword : c.numReplicas < 2 ^ 64)
    (h : ∀ m ∈ counts, m ≤ c.numReplicas) :
    FitsWord (greatestCount counts) ∧ FitsWord (leastCount counts) := by
  have hleast : leastCount counts ≤ unboundedCount := (picked_leastCount counts).start_le
  have hunbounded : unboundedCount < 2 ^ 64 := by decide
  exact ⟨fitsWord_iff.mpr ((greatestCount_le_iff.mpr h).trans_lt hword),
    fitsWord_iff.mpr (hleast.trans_lt hunbounded)⟩

/-- The counts of a report fit a word if those of the brokers and of the replicas do. -/
theorem countsFit_iff (h : c.measure k = .ok report) :
    report.CountsFit ↔ c.brokers.length < 2 ^ 64 ∧ c.numReplicas < 2 ^ 64 := by
  have hmeasured := measured_of_measure h
  have hnumReplicas : report.numReplicas = c.numReplicas := hmeasured.numReplicas
  constructor
  · intro hfit
    have hbrokers := fitsWord_iff.mp hfit.brokers
    have hreplicas := fitsWord_iff.mp hfit.replicas
    rw [hmeasured.numBrokers] at hbrokers
    rw [hnumReplicas] at hreplicas
    exact ⟨hbrokers, hreplicas⟩
  · rintro ⟨hbrokers, hreplicas⟩
    refine ⟨?_, ?_, ?_, ?_⟩
    · rw [hmeasured.numBrokers]
      exact fitsWord_iff.mpr hbrokers
    · rw [hnumReplicas]
      exact fitsWord_iff.mpr hreplicas
    · rw [hmeasured.numTopics]
      exact fitsWord_iff.mpr (c.length_topics_le.trans_lt hreplicas)
    · rw [Report.countRows, List.forall_mem_cons, List.forall_mem_cons, List.forall_mem_singleton]
      refine ⟨?_, ?_, ?_⟩
      · obtain ⟨hmaximum, hminimum⟩ := extremes_of_summarizeCounts hmeasured.replicas
        rw [hmaximum, hminimum]
        exact extremes_fit hreplicas
          (List.forall_mem_map.mpr fun b hb => count_le (fun _ => le_rfl) hb)
      · obtain ⟨hmaximum, hminimum⟩ := extremes_of_summarizeCounts hmeasured.leaders
        rw [hmaximum, hminimum]
        exact extremes_fit hreplicas
          (List.forall_mem_map.mpr fun b hb => count_le numLeaders_le hb)
      · obtain ⟨hmaximum, hminimum⟩ := extremes_of_summarizeTopics hmeasured.topics
        rw [hmaximum, hminimum, greatestCount_flatMap, leastCount_flatMap]
        refine extremes_fit hreplicas fun m hm => ?_
        obtain ⟨topic, -, hm⟩ := List.mem_flatMap.mp hm
        obtain ⟨b, hb, rfl⟩ := List.mem_map.mp hm
        exact count_le (fun b => numReplicasOf_le b topic) hb

/-- The averages and the deviations of the counts are finite. -/
theorem isFinite_counts (h : c.measure k = .ok report) (hfit : report.CountsFit) :
    ∀ row ∈ report.countRows, row.2.average.isFinite = true ∧ row.2.deviation.isFinite = true := by
  have hmeasured := measured_of_measure h
  have hword := ((countsFit_iff h).mp hfit).2
  rw [Report.countRows, List.forall_mem_cons, List.forall_mem_cons, List.forall_mem_singleton]
  exact ⟨isFinite_of_summarizeCounts hword (fun _ => le_rfl) hmeasured.replicas,
    isFinite_of_summarizeCounts hword numLeaders_le hmeasured.leaders,
    isFinite_of_summarizeTopics hword hmeasured.topics⟩

end Counts

section Read

/-- How the JSON text of the report of a cluster is read. -/
structure ReadBack (c : Cluster Float) (text : String) (report : Report Float) : Prop where
  fit : text.length < 2 ^ 64 → report.CountsFit
  written : report.CountsFit → write? .compact report.toDocument = .ok report.toJson
  read : report.CountsFit → read? strict report.toJson = some report.toDocument.masked
  counts : report.CountsFit → ∀ row ∈ report.countRows,
    row.2.average.isFinite = true ∧ row.2.deviation.isFinite = true
  utilization : ∀ r, FiniteWhere (c.consumption r) (report.utilization.get r)
  potentialOut : FiniteWhere c.potentialConsumption report.potentialOut
  unchanged_iff : read? strict report.toJson = some report.toDocument ↔
    report.CountsFit ∧ (∀ r, (c.consumption r).StaysFinite) ∧ c.potentialConsumption.StaysFinite

theorem forall_amountRows_iff {p : Spread Float Float → Prop} :
    (∀ row ∈ report.amountRows, p row.2) ↔
      (∀ r, p (report.utilization.get r)) ∧ p report.potentialOut := by
  rw [Report.amountRows, List.forall_mem_append, List.forall_mem_singleton, PerResource.toFields,
    List.forall_mem_map]
  refine and_congr_left fun _ => ⟨fun h r => h r ?_, fun h r _ => h r⟩
  cases r <;> decide

/-- The JSON text of the report of a cluster is read as the report with null for the figures that
are not finite. Those are the figures of the resources that are made of sums that overflow. -/
theorem measure_readBack [Limits] (hread : ofText file text = .ok c)
    (h : c.measure k = .ok report) :
    c.ReadBack text report := by
  obtain ⟨fields, hdocument, hcluster⟩ := Snapshot.exists_of_ofText hread
  obtain ⟨hfits, haccepted⟩ := cluster_fits (fits_read hdocument) hcluster
  have hnumeric := hfits.isNumeric
  have hmeasured := measured_of_measure h
  have hwritable (hfit : report.CountsFit) : report.toDocument.masked.Writable writtenDepth :=
    hfit.writable
  have hutilization : ∀ r, FiniteWhere (c.consumption r) (report.utilization.get r) := by
    intro r
    obtain ⟨s, hs, hspread, -⟩ := hmeasured.resource r
    rw [hspread]
    exact finiteWhere_utilization haccepted hnumeric hs
  have hpotential : FiniteWhere c.potentialConsumption report.potentialOut := by
    obtain ⟨s, hs, hspread, -⟩ := hmeasured.potential
    rw [hspread]
    exact finiteWhere_potential haccepted hnumeric hs
  have hamounts : (∀ row ∈ report.amountRows, ∀ s, (row.2.get id id s).isFinite = true) ↔
      (∀ r s, ((report.utilization.get r).get id id s).isFinite = true) ∧
        ∀ s, (report.potentialOut.get id id s).isFinite = true :=
    forall_amountRows_iff (p := fun spread => ∀ s, (spread.get id id s).isFinite = true)
  have hfinite (hfit : report.CountsFit) : report.IsFinite ↔
      ∀ row ∈ report.amountRows, ∀ s, (row.2.get id id s).isFinite = true :=
    ⟨fun hfinite => hfinite.amounts, fun hall => ⟨hall, isFinite_counts h hfit⟩⟩
  refine ⟨fun hlength => ?_, fun hfit => write?_of_masked (hwritable hfit) .compact,
    fun hfit => read?_text_masked (hwritable hfit) .compact, isFinite_counts h, hutilization,
    hpotential, ?_⟩
  · have hsize := Snapshot.size_le_length hread
    exact (countsFit_iff h).mpr ⟨by omega, by omega⟩
  · have hunchanged : read? strict report.toJson = some report.toDocument ↔
        report.toDocument.All (Json.Fits strict) :=
      read?_text_iff (fun hall => hwritable (Report.fits_toDocument_iff.mp hall).1) .compact
    refine hunchanged.trans (Report.fits_toDocument_iff.trans (and_congr_right fun hfit => ?_))
    rw [hfinite hfit, hamounts, hpotential.forall_iff]
    simp only [(hutilization _).forall_iff]

/-- A broker that uses as much of the processor as nearly the largest double can say. -/
def heavyBroker (id : Nat) (host : String) : Broker Float where
  id
  capacity := PerResource.replicate 1.0
  host
  rack := ""
  alive := true
  replicas := [⟨⟨"t", id, t_ne_empty⟩, true, ⟨1e308, 0.0, 0.0, 0.0⟩, false⟩]

/-- Two brokers whose uses are finite, but not their sum. -/
def heavy : Cluster Float where
  brokers := [heavyBroker 0 "a", heavyBroker 1 "b"]
  monitoredRatio := 1.0
  windows := 1

theorem heavy_fits : heavy.Fits := by
  have hcapacity : LoadVector.IsFinite (PerResource.replicate 1.0) := by
    intro r
    cases r <;> decide +kernel
  have hload : LoadVector.IsFinite ⟨1e308, 0.0, 0.0, 0.0⟩ := by
    intro r
    cases r <;> decide +kernel
  have hbroker (id : Nat) (host : String) (hid : id < 2 ^ 64) : (heavyBroker id host).Fits :=
    ⟨fitsWord_iff.mpr hid, ⟨host, rfl⟩, ⟨"", rfl⟩, hcapacity,
      List.forall_mem_singleton.mpr ⟨⟨"t", rfl⟩, fitsWord_iff.mpr hid, hload⟩⟩
  refine ⟨fitsWord_iff.mpr (by decide), by decide +kernel, List.forall_mem_cons.mpr ?_⟩
  exact ⟨hbroker 0 "a" (by decide), List.forall_mem_singleton.mpr (hbroker 1 "b" (by decide))⟩

theorem heavy_accepted : heavy.Accepted := by
  have hsorted : inOrder heavy.brokers = heavy.brokers := List.mergeSort_of_pairwise (by decide)
  refine ⟨heavy.brokers, 1.0, 1, fun b hb => ?_, make_eq_ok_iff.mpr ?_⟩
  · rcases (by simpa [heavy] using hb) with rfl | rfl
    all_goals exact ⟨by decide +kernel, by decide +kernel, by decide⟩
  · exact ⟨by decide +kernel, by decide, by decide, by decide, by rw [hsorted]; rfl⟩

/-- The average and the deviation of the heavy cluster are lost in the JSON text of its report. -/
theorem measure_readBack_heavy :
    let _ : Limits := Limits.measured
    ∃ text report, heavy.toText? = .ok text ∧
      ofText "s" text = .ok heavy ∧ heavy.measure Constraint.default = .ok report ∧
      heavy.ReadBack text report ∧
      (∀ r, ∀ b ∈ heavy.aliveBrokers, (heavy.measured r b).1.isFinite = true) ∧
      (report.utilization.get .cpu).average.isFinite = false ∧
      (report.utilization.get .cpu).deviation.isFinite = false ∧
      read? strict report.toJson = some report.toDocument.masked ∧
      read? strict report.toJson ≠ some report.toDocument := by
  intro _
  obtain ⟨text, htext, hread⟩ := ofText_of_fits heavy_fits heavy_accepted
  obtain ⟨report, hreport⟩ : ∃ report, heavy.measure Constraint.default = .ok report :=
    exists_eq_ok_of_isOk (by decide +kernel)
  have hback := measure_readBack (hread "s") hreport
  have hfit : report.CountsFit := (countsFit_iff hreport).mpr ⟨by decide, by decide⟩
  have hload : (heavy.load.get .cpu).isFinite = false := by decide +kernel
  have hsquares : (heavy.consumption .cpu).squares.isFinite = false := by decide +kernel
  have huses : ∀ r, ∀ b ∈ heavy.aliveBrokers, (heavy.measured r b).1.isFinite = true := by
    intro r
    cases r <;> decide +kernel
  refine ⟨text, report, htext, hread "s", hreport, hback, huses, ?_, ?_, hback.read hfit, ?_⟩
  · exact Bool.eq_false_iff.mpr
      ((hback.utilization .cpu).average.not.mpr (Bool.eq_false_iff.mp hload))
  · exact Bool.eq_false_iff.mpr
      ((hback.utilization .cpu).deviation.not.mpr (Bool.eq_false_iff.mp hsquares))
  · intro hsame
    obtain ⟨-, hall, -⟩ := hback.unchanged_iff.mp hsame
    exact Bool.false_ne_true (hload.symm.trans (hall .cpu).total)

end Read

end ClusterBalance.Cluster
