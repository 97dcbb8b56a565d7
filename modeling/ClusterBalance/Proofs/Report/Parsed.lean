import ClusterBalance.Proofs.Document.Json.Masked
import ClusterBalance.Proofs.Snapshot.Dump
import ClusterBalance.Report.Render

/-! What keeps the JSON text of a report from being read as the report. Main statements: nothing
does exactly if the counts of the report fit a word and its other figures are finite; and if only
the counts do, the report can be written with null in the place of what is not finite. -/

namespace ClusterBalance

open Document Json

namespace Report

/-- The counts of a report fit a word. -/
structure CountsFit (r : Report Float) : Prop where
  brokers : FitsWord r.numBrokers
  replicas : FitsWord r.numReplicas
  topics : FitsWord r.numTopics
  rows : ∀ row ∈ r.countRows, FitsWord row.2.maximum ∧ FitsWord row.2.minimum

/-- The statistics of a report are finite. -/
structure IsFinite (r : Report Float) : Prop where
  amounts : ∀ row ∈ r.amountRows, ∀ s, (row.2.get id id s).isFinite = true
  counts : ∀ row ∈ r.countRows, row.2.average.isFinite = true ∧ row.2.deviation.isFinite = true

variable {r : Report Float} {room : Nat}

section Fields

theorem fits_int_iff {n : Int} : (int n).All (Fits strict) ↔ FitsWord n :=
  ⟨fun h => h wordRange rfl, fun h range hrange => by cases hrange; exact h⟩

theorem fits_float_iff {x : Float} : (float x).All (Fits strict) ↔ x.isFinite = true :=
  ⟨fun h => h rfl, fun h _ => h⟩

theorem get_float (spread : Spread Float Float) (s : Statistic) :
    spread.get float float s = float (spread.get id id s) := by
  cases s <;> rfl

theorem forall_fits_count_iff {spread : Spread Float Nat} :
    (∀ s, (spread.get float (fun n : Nat => int n) s).All (Fits strict)) ↔
      (FitsWord spread.maximum ∧ FitsWord spread.minimum) ∧
        spread.average.isFinite = true ∧ spread.deviation.isFinite = true := by
  constructor
  · intro h
    exact ⟨⟨fits_int_iff.mp (h .maximum), fits_int_iff.mp (h .minimum)⟩,
      fits_float_iff.mp (h .average), fits_float_iff.mp (h .deviation)⟩
  · rintro ⟨⟨hmaximum, hminimum⟩, haverage, hdeviation⟩ (_ | _ | _ | _)
    · exact fits_float_iff.mpr haverage
    · exact fits_int_iff.mpr hmaximum
    · exact fits_int_iff.mpr hminimum
    · exact fits_float_iff.mpr hdeviation

theorem forall_statisticFields_iff {p : String × Document → Prop} {s : Statistic} :
    (∀ field ∈ r.statisticFields s, p field) ↔
      (∀ row ∈ r.amountRows, p (row.1, row.2.get float float s)) ∧
        ∀ row ∈ r.countRows, p (row.1, row.2.get float (fun n : Nat => int n) s) := by
  rw [statisticFields, List.forall_mem_append, List.forall_mem_map, List.forall_mem_map]

theorem mem_statistics (s : Statistic) : s ∈ Statistic.all := by cases s <;> decide

theorem fits_toDocument_iff : r.toDocument.All (Fits strict) ↔ r.CountsFit ∧ r.IsFinite := by
  have hfields (fields : List (String × Document)) :
      (ofFields fields).All (Fits strict) ↔ ∀ field ∈ fields, field.2.All (Fits strict) :=
    fieldsAll_iff.trans List.forall_mem_map
  have hstatistics : (∀ s ∈ Statistic.all, (ofFields (r.statisticFields s)).All (Fits strict)) ↔
      (∀ row ∈ r.countRows, FitsWord row.2.maximum ∧ FitsWord row.2.minimum) ∧ r.IsFinite := by
    simp only [hfields, forall_statisticFields_iff, get_float, fits_float_iff]
    constructor
    · intro h
      have hcounts (row : String × Spread Float Nat) (hrow : row ∈ r.countRows) :=
        forall_fits_count_iff.mp fun s => (h s (mem_statistics s)).2 row hrow
      exact ⟨fun row hrow => (hcounts row hrow).1,
        fun row hrow s => (h s (mem_statistics s)).1 row hrow, fun row hrow => (hcounts row hrow).2⟩
    · rintro ⟨hextremes, hamounts, hcounts⟩ s -
      exact ⟨fun row hrow => hamounts row hrow s,
        fun row hrow => forall_fits_count_iff.mpr ⟨hextremes row hrow, hcounts row hrow⟩ s⟩
  have hdocument : r.toDocument.All (Fits strict) ↔
      (FitsWord r.numBrokers ∧ FitsWord r.numReplicas ∧ FitsWord r.numTopics) ∧
        ∀ s ∈ Statistic.all, (ofFields (r.statisticFields s)).All (Fits strict) := by
    have hlabelled : (object (Statistic.all.map fun s =>
        (LooseText.sound s.key, ofFields (r.statisticFields s)))).All (Fits strict) ↔
        ∀ s ∈ Statistic.all, (ofFields (r.statisticFields s)).All (Fits strict) :=
      fieldsAll_iff.trans List.forall_mem_map
    rw [← fits_int_iff, ← fits_int_iff, ← fits_int_iff, ← hlabelled]
    simp only [toDocument, All, FieldsAll, and_true]
  rw [hdocument, hstatistics]
  constructor
  · rintro ⟨⟨hbrokers, hreplicas, htopics⟩, hrows, hfinite⟩
    exact ⟨⟨hbrokers, hreplicas, htopics, hrows⟩, hfinite⟩
  · rintro ⟨⟨hbrokers, hreplicas, htopics, hrows⟩, hfinite⟩
    exact ⟨⟨hbrokers, hreplicas, htopics⟩, hrows, hfinite⟩

theorem CountsFit.writable (h : r.CountsFit) : r.toDocument.masked.Writable (room + 3) := by
  have hmetadata : (object [("brokers", .int r.numBrokers), ("replicas", .int r.numReplicas),
      ("topics", .int r.numTopics)]).masked.Writable (room + 2) := by
    have hkeys : (["brokers", "replicas", "topics"] : List LooseText).Nodup := by decide +kernel
    refine writable_masked_object hkeys ?_
    simp only [List.forall_mem_cons]
    exact ⟨⟨rfl, writable_masked_int h.brokers⟩, ⟨rfl, writable_masked_int h.replicas⟩,
      ⟨rfl, writable_masked_int h.topics⟩, nofun⟩
  have hstatistics (s : Statistic) :
      (ofFields (r.statisticFields s)).masked.Writable (room + 1) := by
    refine writable_masked_object ?_ (List.forall_mem_map.mpr ?_)
    · have hkeys : (["cpu", "networkInbound", "networkOutbound", "disk", "potentialNwOut",
          "replicas", "leaderReplicas", "topicReplicas"] : List LooseText).Nodup := by
        decide +kernel
      exact hkeys
    · refine forall_statisticFields_iff.mpr ⟨fun row hrow => ⟨rfl, ?_⟩, fun row hrow => ⟨rfl, ?_⟩⟩
      · rw [get_float]
        exact writable_masked_float _
      · obtain ⟨hmaximum, hminimum⟩ := h.rows row hrow
        cases s with
        | average => exact writable_masked_float _
        | maximum => exact writable_masked_int hmaximum
        | minimum => exact writable_masked_int hminimum
        | deviation => exact writable_masked_float _
  have hkeys : (["metadata", "statistics"] : List LooseText).Nodup := by decide +kernel
  refine writable_masked_object hkeys ?_
  simp only [List.forall_mem_cons]
  have hlabels : (["AVG", "MAX", "MIN", "STD"] : List LooseText).Nodup := by decide +kernel
  have hlabelled : (object (Statistic.all.map fun s =>
      (LooseText.sound s.key, ofFields (r.statisticFields s)))).masked.Writable (room + 2) :=
    writable_masked_object hlabels (List.forall_mem_map.mpr fun s _ => ⟨rfl, hstatistics s⟩)
  exact ⟨⟨rfl, hmetadata⟩, ⟨rfl, hlabelled⟩, nofun⟩

end Fields

end Report

end ClusterBalance
