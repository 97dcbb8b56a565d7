import ClusterBalance.Proofs.Document.Json.RoundTrip
import ClusterBalance.Proofs.Document.Within
import ClusterBalance.Proofs.Snapshot.RoundTrip

/-! Snapshot files that are written again. Main statement: a cluster that was read from a text is
written as a text that is read as that cluster. -/

namespace ClusterBalance

open Document Json Snapshot

/-- A whole number that fits a word. -/
def FitsWord (n : Int) : Prop := wordRange.1 ≤ n ∧ n ≤ wordRange.2

/-- The amounts of a vector are finite. -/
def LoadVector.IsFinite (v : LoadVector Float) : Prop := ∀ r, (v.get r).isFinite = true

/-- The topic and the numbers of a replica can be written. -/
structure Replica.Fits (r : Replica Float) : Prop where
  topic : r.partition.topic.IsSound
  partition : FitsWord r.partition.partition
  load : r.load.IsFinite

/-- The names and the numbers of a broker can be written. -/
structure Broker.Fits (b : Broker Float) : Prop where
  id : FitsWord b.id
  host : b.host.IsSound
  rack : b.rack.IsSound
  capacity : b.capacity.IsFinite
  replicas : ∀ r ∈ b.replicas, r.Fits

/-- The names and the numbers of a cluster can be written. -/
structure Cluster.Fits (c : Cluster Float) : Prop where
  windows : FitsWord c.windows
  ratio : c.monitoredRatio.isFinite = true
  brokers : ∀ b ∈ c.brokers, b.Fits

section Write

variable {room : Nat}

theorem LoadVector.IsFinite.writable {v : LoadVector Float} (h : v.IsFinite) :
    v.toDocument.Writable (room + 1) := by
  have hkeys : (Resource.all.map fun r => LooseText.sound r.wireName).Nodup := by decide +kernel
  rw [LoadVector.toDocument_eq]
  refine writable_object (by rwa [List.map_map]) fun field hfield => ?_
  obtain ⟨r, -, rfl⟩ := List.mem_map.mp hfield
  exact ⟨rfl, writable_float (h r)⟩

theorem Replica.Fits.writable {r : Replica Float} (h : r.Fits) :
    r.toDocument.Writable (room + 2) := by
  have hkeys : (["topic", "partition", "leader", "offline", "load"] : List LooseText).Nodup := by
    decide +kernel
  refine writable_object hkeys ?_
  simp only [List.forall_mem_cons]
  exact ⟨⟨rfl, writable_string h.topic⟩, ⟨rfl, writable_int h.partition⟩, ⟨rfl, writable_bool _⟩,
    ⟨rfl, writable_bool _⟩, ⟨rfl, h.load.writable⟩, nofun⟩

theorem Broker.Fits.writable {b : Broker Float} (h : b.Fits) :
    b.toDocument.Writable (room + 4) := by
  have hreplicas : Writable (room + 3) (.list (b.replicas.map Replica.toDocument)) := by
    refine writable_list fun item hitem => ?_
    obtain ⟨r, hr, rfl⟩ := List.mem_map.mp hitem
    exact (h.replicas r hr).writable
  have hkeys : (["id", "host", "rack", "alive", "capacity", "replicas"] :
      List LooseText).Nodup := by
    decide +kernel
  refine writable_object hkeys ?_
  simp only [List.forall_mem_cons]
  exact ⟨⟨rfl, writable_int h.id⟩, ⟨rfl, writable_string h.host⟩, ⟨rfl, writable_string h.rack⟩,
    ⟨rfl, writable_bool _⟩, ⟨rfl, h.capacity.writable⟩, ⟨rfl, hreplicas⟩, nofun⟩

theorem Cluster.Fits.writable {c : Cluster Float} (h : c.Fits) :
    c.toDocument.Writable (room + 6) := by
  have hbrokers : Writable (room + 5) (.list (c.brokers.map Broker.toDocument)) := by
    refine writable_list fun item hitem => ?_
    obtain ⟨b, hb, rfl⟩ := List.mem_map.mp hitem
    exact (h.brokers b hb).writable
  have hkeys : (["monitored_partitions_ratio", "num_windows", "brokers"] :
      List LooseText).Nodup := by
    decide +kernel
  refine writable_object hkeys ?_
  simp only [List.forall_mem_cons]
  exact ⟨⟨rfl, writable_float h.ratio⟩, ⟨rfl, writable_int h.windows⟩, ⟨rfl, hbrokers⟩, nofun⟩

end Write

section Read

variable {key : String} {entry : Document} {fields : List (LooseText × Document)}

theorem fitsWord_of_find? {n : Int} (h : FieldsAll (Fits strict) fields)
    (hfind : find? key fields = some (.int n)) : FitsWord n :=
  all_of_find? h hfind wordRange rfl

/-- Half of a surrogate pair can only come from a text. -/
theorem isSound_wording {value : Document} (h : value.All (Fits strict)) :
    value.wording.IsSound := by
  cases value with
  | string s => exact h rfl
  | _ => exact ⟨_, rfl⟩

theorem isSound_wordingOr [Limits] {text : LooseText} (h : FieldsAll (Fits strict) fields)
    (htext : wordingOr key fields = .ok text) : text.IsSound := by
  have hdefault : (Document.string "").All (Fits strict) := fun _ => ⟨"", rfl⟩
  rw [wordingOr_eq_wording htext]
  exact isSound_wording (all_findD h hdefault)

theorem isFinite_of_denotes {value : Document} {x : Float} (h : value.All (Fits strict))
    (hx : Denotes value x) : x.isFinite = true := by
  cases hx with
  | float => exact h rfl
  | whole n _ hn => exact Decimal.isFinite_of_ofWhole? hn

theorem isFinite_foldlM_putField {v w : LoadVector Float} (hfields : FieldsAll (Fits strict) fields)
    (hv : v.IsFinite) (h : fields.foldlM LoadVector.putField v = .ok w) : w.IsFinite := by
  induction fields generalizing v with
  | nil =>
    cases h
    exact hv
  | cons field rest ih =>
    rw [List.foldlM_cons] at h
    obtain ⟨v', hv', h⟩ := bind_eq_ok_iff.mp h
    obtain ⟨r, x, -, hx, rfl⟩ := putField_eq_ok_iff.mp hv'
    refine ih hfields.2 (fun r' => ?_) h
    rw [PerResource.get_set]
    split
    · exact isFinite_of_denotes hfields.1 hx
    · exact hv r'

theorem vector_isFinite {v : LoadVector Float} (hfits : entry.All (Fits strict))
    (h : LoadVector.ofDocument entry = .ok v) : v.IsFinite ∧ v.negative? = none := by
  cases entry with
  | object fields =>
    obtain ⟨w, hw, hmake⟩ := bind_eq_ok_iff.mp h
    have hempty : (LoadVector.empty : LoadVector Float).IsFinite := by
      intro r
      rw [LoadVector.empty, PerResource.replicate, PerResource.get_ofFn]
      decide +kernel
    have hfinite := isFinite_foldlM_putField hfits hempty hw
    unfold LoadVector.make at hmake
    split at hmake
    next => cases hmake
    next hnone =>
      cases hmake
      exact ⟨hfinite, hnone⟩
  | _ => cases h

theorem field_isFinite {v : LoadVector Float} (hfits : FieldsAll (Fits strict) fields)
    (h : LoadVector.ofDocument (findD key (.object []) fields) = .ok v) :
    v.IsFinite ∧ v.negative? = none := by
  have hdefault : (Document.object []).All (Fits strict) := trivial
  exact vector_isFinite (all_findD hfits hdefault) h

theorem replica_fits {broker : Int} {r : Replica Float} (hfits : entry.All (Fits strict))
    (h : Replica.ofDocument broker entry = .ok r) : r.Fits ∧ r.load.negative? = none := by
  obtain ⟨-, fields, rfl, hfields⟩ := replica_eq_ok_iff.mp h
  have hread := ofFields_eq_ok_iff.mp hfields
  obtain ⟨hfinite, hnonneg⟩ := field_isFinite hfits hread.load
  have hsound : r.partition.topic.IsSound := all_of_find? hfits hread.topic rfl
  exact ⟨⟨hsound, fitsWord_of_find? hfits hread.partition, hfinite⟩, hnonneg⟩

theorem broker_fits [Limits] {b : Broker Float} (hfits : entry.All (Fits strict))
    (h : Broker.ofDocument entry = .ok b) : b.Fits ∧ b.Admitted := by
  obtain ⟨fields, rfl, hread⟩ := broker_eq_ok_iff.mp h
  have hitem : ∀ item ∈ replicaEntries (.object fields), item.All (Fits strict) := by
    unfold replicaEntries itemsOf fieldOf?
    split
    next items hitems => exact fun item hmem => all_of_mem (all_of_find? hfits hitems) hmem
    next => exact nofun
  have hreplicas := forall_of_mapM_eq_ok hread.replicas fun item hmem r hr =>
    replica_fits (hitem item hmem) hr
  obtain ⟨hfinite, hamounts⟩ := field_isFinite hfits hread.capacity
  obtain ⟨host, hhost, -, heq⟩ := hread.host
  have hname : b.host.IsSound := by
    rw [heq, hostFor]
    split
    · exact ⟨_, rfl⟩
    · exact isSound_wordingOr hfits hhost
  have hne : b.host ≠ "" := by
    rw [heq]
    exact hostFor_ne_empty b.id host
  exact ⟨⟨fitsWord_of_find? hfits hread.id, hname, isSound_wordingOr hfits hread.rack, hfinite,
    fun r hr => (hreplicas r hr).1⟩, ⟨hamounts, fun r hr => (hreplicas r hr).2, hne⟩⟩

/-- A cluster whose document is read from a text is accepted, and its numbers can be written. -/
theorem cluster_fits [Limits] {c : Cluster Float} (hfits : FieldsAll (Fits strict) fields)
    (h : Cluster.ofDocument (.object fields) = .ok c) : c.Fits ∧ c.Accepted := by
  have hitems := find?_brokers_of_ok h
  obtain ⟨windows, ratio, brokers, hwindows, hratio, hbrokers, hmake⟩ :=
    (ofDocument_eq_ok_iff hitems).mp h
  have heach := forall_of_mapM_eq_ok hbrokers fun entry hentry b hb =>
    broker_fits (all_of_mem (all_of_find? hfits hitems) hentry) hb
  -- a field that is left out stands for a value that fits as well
  have hwindow : FitsWord windows := by
    have hone : Fits strict (.int 1) := by
      rintro range ⟨⟩
      decide
    have hfield : (findD "num_windows" (.int 1) fields).All (Fits strict) := all_findD hfits hone
    unfold Cluster.windowsField at hwindows
    split at hwindows
    next heq =>
      cases hwindows
      rw [heq] at hfield
      exact hfield wordRange rfl
    next => cases hwindows
  have hdefault : (Document.float 1.0).All (Fits strict) := fun _ => by decide +kernel
  have hshare : ratio.isFinite = true := isFinite_of_denotes (all_findD hfits hdefault) hratio
  refine ⟨?_, brokers, ratio, windows, fun b hb => (heach b hb).2, hmake⟩
  obtain ⟨-, hnonneg, -, -, rfl⟩ := Cluster.make_eq_ok_iff.mp hmake
  refine ⟨?_, hshare, fun b hb => (heach b ((Cluster.inOrder_perm brokers).mem_iff.mp hb)).1⟩
  dsimp only
  rwa [Int.toNat_of_nonneg hnonneg]

end Read

theorem LoadVector.IsFinite.isNumeric {v : LoadVector Float} (h : v.IsFinite) : v.IsNumeric :=
  fun r => Decimal.isNaN_of_isFinite (h r)

theorem Cluster.Fits.isNumeric {c : Cluster Float} (h : c.Fits) : c.IsNumeric := by
  intro b hb
  refine ⟨(h.brokers b hb).capacity.isNumeric, fun r hr => ?_⟩
  exact ((h.brokers b hb).replicas r hr).load.isNumeric

/-- An id that fits a word is not too long. -/
theorem Cluster.Fits.idsReadable {c : Cluster Float} (h : c.Fits) : c.IdsReadable := by
  intro b hb _
  have hid := (h.brokers b hb).id.2
  have hlimit : wordRange.2.toNat < digitLimit := by decide +kernel
  omega

namespace Cluster

/-- What a cluster that can be written is read as. -/
theorem ofText_of_fits [Limits] {c : Cluster Float} (hfits : c.Fits) (haccepted : c.Accepted) :
    ∃ out, c.toText? = .ok out ∧ ∀ file, ofText file out = .ok c := by
  -- a cluster nests six levels deep, however large it is
  have hwritable : c.toDocument.Writable writtenDepth := @Fits.writable 248 c hfits
  refine ⟨_, write?_of_writable hwritable (.indented 0), fun file => ?_⟩
  have hread : read? strict (text (.indented 0) c.toDocument) = some c.toDocument := by
    rw [read?, read_text hwritable]
    rfl
  rw [ofText, hread]
  exact haccepted.roundTrip hfits.idsReadable

/-- A cluster that was read from a text is written. What is written is read as a cluster that equals
it and is the same in every part, and this one is written as the same text again. -/
theorem ofText_toText [Limits] {file text : String} {c : Cluster Float}
    (h : ofText file text = .ok c) :
    ∃ out, c.toText? = .ok out ∧ ∀ file', ∃ c', ofText file' out = .ok c' ∧
      (c' == c) = true ∧ c' = c ∧ c'.toText? = .ok out := by
  have hparts : c.Fits ∧ c.Accepted := by
    unfold ofText at h
    split at h
    next => cases h
    next fields hread => exact cluster_fits (fits_read (read_of_read? hread)) h
    next => cases h
  obtain ⟨hfits, haccepted⟩ := hparts
  obtain ⟨out, hout, hread⟩ := ofText_of_fits hfits haccepted
  refine ⟨out, hout, fun file' => ⟨c, hread file', ?_, rfl, hout⟩⟩
  obtain ⟨brokers, ratio, windows, -, hmake⟩ := haccepted
  apply beq_self hfits.isNumeric
  obtain ⟨hratio, -, -, -, rfl⟩ := make_eq_ok_iff.mp hmake
  exact hratio.1

/-- A broker that names its host by a number and one of its amounts twice. Another amount is too
large for a word. -/
def unevenText : String :=
  "\x7b\"brokers\":[\x7b\"host\":7,\"id\":5,\"capacity\":\x7b\"cpu\":1e-7,\"CPU\":0.1\x7d," ++
    "\"replicas\":[\x7b\"partition\":0,\"topic\":\"t\"," ++
    "\"load\":\x7b\"nw_in\":18446744073709551616\x7d\x7d]\x7d]\x7d"

/-- The uneven text describes a cluster, which is written and read back. -/
theorem ofText_toText_uneven :
    let _ : Limits := Limits.measured
    ∃ c, ofText "s" unevenText = .ok c ∧
      ∃ out, c.toText? = .ok out ∧ ∀ file', ∃ c', ofText file' out = .ok c' ∧
        (c' == c) = true ∧ c' = c ∧ c'.toText? = .ok out := by
  intro _
  have hok : (ofText "s" unevenText).toBool = true := by decide +kernel
  cases h : ofText "s" unevenText with
  | error e =>
    rw [h] at hok
    cases hok
  | ok c => exact ⟨c, rfl, ofText_toText h⟩

end Cluster

end ClusterBalance
