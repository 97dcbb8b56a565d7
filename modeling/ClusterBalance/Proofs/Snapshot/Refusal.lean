import ClusterBalance.Fault
import ClusterBalance.Proofs.Snapshot.Acceptance

/-! How snapshots are refused. Main statement: a refused snapshot has an invalid value, misses a key
that it needs, or has a whole number that is too large; only where it nests deeper than literal
texts do can the refusal be that. -/

namespace ClusterBalance

open Document Snapshot

/-- A refusal that reading a document can lead to. What it quotes are parts of the document, and
where it says that something is too deep or too large, the document is so. -/
structure SnapshotError.Concerns [Limits] (e : SnapshotError) (document : Document) : Prop where
  quoted : ∀ value ∈ e.quotes, value.Inside document
  deep : e = .noLiteral .tooDeep → Limits.literalDepth + 1 < document.nesting
  key : ∀ key, e = .missingKey key → key = "id" ∨ key = "topic" ∨ key = "partition"
  large : e = .tooLarge → ∃ n ∈ document.wholes, Decimal.ofWhole? n = none
  parsed : e.errorClass ≠ .malformedJson ∧ e.errorClass ≠ .missingMember

/-- Where everything that is quoted can be written, the class of a refusal is its own; else it is
that of the first attempt to write that fails. -/
theorem SnapshotError.errorClass_fault [Limits] (e : SnapshotError) :
    e.fault.errorClass =
      match e.quotes.mapM literal? with
      | .ok _ => e.errorClass
      | .error cause => cause.errorClass := by
  unfold fault Fault.quoting
  cases e.quotes.mapM literal? <;> rfl

namespace SnapshotError.Concerns

variable [Limits] {e : SnapshotError} {document document' : Document}

theorem mono (h : e.Concerns document) (hpart : document.Inside document') :
    e.Concerns document' where
  quoted := fun value hvalue => (h.quoted value hvalue).trans hpart
  deep := fun he => Nat.lt_of_lt_of_le (h.deep he) hpart.nesting
  key := h.key
  large := fun he => (h.large he).imp fun _ ⟨hmem, hn⟩ => ⟨hpart.wholes hmem, hn⟩
  parsed := h.parsed

theorem of_invalid (hclass : e.errorClass = .invalidValue)
    (hquoted : ∀ value ∈ e.quotes, value.Inside document) : e.Concerns document where
  quoted := hquoted
  deep := fun h => by rw [h] at hclass; cases hclass
  key := fun key h => by rw [h] at hclass; cases hclass
  large := fun h => by rw [h] at hclass; cases hclass
  parsed := by rw [hclass]; decide

theorem of_plain (hclass : e.errorClass = .invalidValue) (hquotes : e.quotes = []) :
    e.Concerns document :=
  of_invalid hclass (by rw [hquotes]; exact List.forall_mem_nil _)

theorem of_quoted {value : Document} (hclass : e.errorClass = .invalidValue)
    (hquotes : e.quotes = [value]) (hvalue : value.Inside document) : e.Concerns document :=
  of_invalid hclass (by rw [hquotes]; exact List.forall_mem_singleton.mpr hvalue)

theorem of_missingKey {key : String} (h : key = "id" ∨ key = "topic" ∨ key = "partition") :
    (missingKey key).Concerns document where
  quoted := List.forall_mem_nil _
  deep := nofun
  key := by
    rintro _ ⟨⟩
    exact h
  large := nofun
  parsed := ⟨nofun, nofun⟩

theorem of_tooLarge (h : ∃ n ∈ document.wholes, Decimal.ofWhole? n = none) :
    tooLarge.Concerns document where
  quoted := List.forall_mem_nil _
  deep := nofun
  key := nofun
  large := fun _ => h
  parsed := ⟨nofun, nofun⟩

/-- The classes of refusals that concern a document: a value is invalid, a key is missing, a whole
number is too large, or a value nests too deep. -/
theorem errorClass_cases (h : e.Concerns document) :
    e.fault.errorClass = .invalidValue ∨
      (e.fault.errorClass = .missingKey ∧
        (e = .missingKey "id" ∨ e = .missingKey "topic" ∨ e = .missingKey "partition")) ∨
      (e.fault.errorClass = .overflow ∧ ∃ n ∈ document.wholes, Decimal.ofWhole? n = none) ∨
      (e.fault.errorClass = .tooDeep ∧ Limits.literalDepth + 1 < document.nesting) := by
  rw [errorClass_fault]
  cases hquotes : e.quotes.mapM literal? with
  | error cause =>
    obtain ⟨value, hmem, hliteral⟩ := exists_of_mapM_eq_error hquotes
    cases cause with
    | tooManyDigits => exact .inl rfl
    | tooDeep =>
      have hdeep : Limits.literalDepth + 1 < value.nesting := holds_of_literal? hliteral
      exact .inr (.inr (.inr ⟨rfl, Nat.lt_of_lt_of_le hdeep (h.quoted value hmem).nesting⟩))
  | ok texts =>
    cases e with
    | malformed => exact absurd rfl h.parsed.1
    | noMember kind => exact absurd rfl h.parsed.2
    | missingKey key =>
      refine .inr (.inl ⟨rfl, ?_⟩)
      rcases h.key key rfl with rfl | rfl | rfl
      · exact .inl rfl
      · exact .inr (.inl rfl)
      · exact .inr (.inr rfl)
    | tooLarge => exact .inr (.inr (.inl ⟨rfl, h.large rfl⟩))
    | noLiteral cause =>
      cases cause with
      | tooManyDigits => exact .inl rfl
      | tooDeep => exact .inr (.inr (.inr ⟨rfl, h.deep rfl⟩))
    | _ => exact .inl rfl

end SnapshotError.Concerns

namespace Snapshot

variable {fields : List (LooseText × Document)} {e : SnapshotError}

theorem concerns_requireInteger [Limits] {key : String}
    (hkey : key = "id" ∨ key = "topic" ∨ key = "partition")
    (h : requireInteger key fields = .error e) : e.Concerns (.object fields) := by
  unfold requireInteger at h
  split at h
  · cases h
    exact .of_missingKey hkey
  · cases h
  next value hvalue =>
    cases h
    exact .of_quoted rfl rfl (inside_of_find? hvalue)

theorem concerns_booleanOr [Limits] {key : String} {default : Bool}
    (h : booleanOr key default fields = .error e) : e.Concerns (.object fields) := by
  unfold booleanOr at h
  split at h
  · cases h
  · cases h
  next value hvalue =>
    cases h
    exact .of_quoted rfl rfl (inside_of_find? hvalue)

theorem concerns_requireTopic [Limits] (h : Replica.requireTopic fields = .error e) :
    e.Concerns (.object fields) := by
  unfold Replica.requireTopic at h
  split at h
  · cases h
    exact .of_missingKey (by decide)
  · cases h
  next value hvalue =>
    cases h
    exact .of_quoted rfl rfl (inside_of_find? hvalue)

theorem lift_eq_error {β : Type} {x : Except LiteralError β} (h : lift x = .error e) :
    ∃ cause, x = .error cause ∧ e = .noLiteral cause := by
  cases x with
  | ok y => cases h
  | error cause => exact ⟨cause, rfl, (Except.error.inj h).symm⟩

/-- A text that cannot be written has too many digits or nests too deep. -/
theorem concerns_wordingOr [Limits] {key : String} (h : wordingOr key fields = .error e) :
    e.Concerns (.object fields) := by
  obtain ⟨cause, hcause, rfl⟩ := lift_eq_error h
  cases cause with
  | tooManyDigits => exact .of_plain rfl rfl
  | tooDeep =>
    have hdeep : Limits.literalDepth + 1 < (findD key (.string "") fields).nesting :=
      holds_of_wording? hcause
    have hpart := (@inside_findD key (.string "") fields rfl rfl).nesting
    exact ⟨List.forall_mem_nil _, fun _ => Nat.lt_of_lt_of_le hdeep hpart, nofun, nofun,
      ⟨nofun, nofun⟩⟩

theorem inside_int {n : Int} {key : String} (h : find? key fields = some (.int n)) :
    (Document.int n).Inside (.object fields) := inside_of_find? h

theorem concerns_partitionOf [Limits] {topic : LooseText} {n : Int} {document : Document}
    (hn : (Document.int n).Inside document) (h : partitionOf topic n = .error e) :
    e.Concerns document := by
  unfold partitionOf TopicPartition.make at h
  split at h
  · cases h
  next refusal hrefusal =>
    cases h
    split at hrefusal
    · cases hrefusal
      exact .of_plain rfl rfl
    · split at hrefusal
      · cases hrefusal
        exact .of_quoted rfl rfl hn
      · cases hrefusal

theorem exists_tooLarge {value : Document} (h : value.number = .tooLarge) :
    ∃ n ∈ value.wholes, Decimal.ofWhole? n = none := by
  cases value with
  | int n =>
    rw [number] at h
    split at h
    · cases h
    next hn => exact ⟨n, by simp [wholes], hn⟩
  | _ => cases h

theorem concerns_putField [Limits] {v : LoadVector Float} {field : LooseText × Document}
    (h : LoadVector.putField v field = .error e) : e.Concerns field.2 := by
  obtain ⟨key, value⟩ := field
  simp only [LoadVector.putField] at h
  split at h
  · cases h
    exact .of_quoted rfl rfl (.refl _)
  next hlarge =>
    cases h
    exact .of_tooLarge (exists_tooLarge hlarge)
  · rcases bind_eq_error_iff.mp h with h | ⟨_, -, h⟩
    · unfold resourceOfKey at h
      split at h
      · cases h
      · cases h
        exact .of_plain rfl rfl
    · cases h

theorem concerns_foldlM_putField [Limits] {v : LoadVector Float}
    (h : fields.foldlM LoadVector.putField v = .error e) : e.Concerns (.object fields) := by
  have hfield : ∃ field ∈ fields, e.Concerns field.2 := by
    induction fields generalizing v with
    | nil => cases h
    | cons field rest ih =>
      rw [List.foldlM_cons] at h
      rcases bind_eq_error_iff.mp h with h | ⟨v', -, h⟩
      · exact ⟨field, List.mem_cons_self, concerns_putField h⟩
      · obtain ⟨field', hmem, hconcerns⟩ := ih h
        exact ⟨field', List.mem_cons_of_mem field hmem, hconcerns⟩
  obtain ⟨field, hmem, hconcerns⟩ := hfield
  exact hconcerns.mono (inside_object hmem)

theorem concerns_vector [Limits] {document : Document}
    (h : LoadVector.ofDocument document = .error e) :
    e.Concerns document := by
  unfold LoadVector.ofDocument at h
  split at h
  next fields =>
    rcases bind_eq_error_iff.mp h with h | ⟨v, -, h⟩
    · exact concerns_foldlM_putField h
    · unfold LoadVector.make at h
      split at h
      · cases h
        exact .of_plain rfl rfl
      · cases h
  · cases h
    exact .of_quoted rfl rfl (.refl _)

theorem concerns_vectorField [Limits] {key : String}
    (h : LoadVector.ofDocument (findD key (.object []) fields) = .error e) :
    e.Concerns (.object fields) :=
  (concerns_vector h).mono (inside_findD rfl rfl)

theorem concerns_replica [Limits] {broker : Int} {document : Document}
    (h : Replica.ofDocument broker document = .error e) : e.Concerns document := by
  rcases bind_eq_error_iff.mp h with h | ⟨id, -, h⟩
  · obtain ⟨cause, hcause, rfl⟩ := lift_eq_error h
    obtain ⟨-, rfl⟩ := wholeText?_eq_error_iff.mp hcause
    exact .of_plain rfl rfl
  split at h
  next fields =>
    rcases bind_eq_error_iff.mp h with h | ⟨topic, -, h⟩
    · exact concerns_requireTopic h
    rcases bind_eq_error_iff.mp h with h | ⟨n, hn, h⟩
    · exact concerns_requireInteger (by decide) h
    rcases bind_eq_error_iff.mp h with h | ⟨p, -, h⟩
    · exact concerns_partitionOf (inside_int (requireInteger_eq_ok_iff.mp hn)) h
    rcases bind_eq_error_iff.mp h with h | ⟨leader, -, h⟩
    · exact concerns_booleanOr h
    rcases bind_eq_error_iff.mp h with h | ⟨load, -, h⟩
    · exact concerns_vectorField h
    rcases bind_eq_error_iff.mp h with h | ⟨offline, -, h⟩
    · exact concerns_booleanOr h
    · cases h
  · cases h
    exact .of_quoted rfl rfl (.refl _)

theorem concerns_replicaItems [Limits] {id : Int} (hid : (Document.int id).Inside (.object fields))
    (h : Broker.replicaItems id fields = .error e) : e.Concerns (.object fields) := by
  unfold Broker.replicaItems at h
  split at h
  · cases h
  · cases h
    refine .of_invalid rfl ?_
    have hvalue := @inside_findD "replicas" (.list []) fields rfl rfl
    simpa [SnapshotError.quotes] using ⟨hid, hvalue⟩

/-- Replicas that claim their own broker are refused only for its id. -/
theorem concerns_ofParts [Limits] {id : Int} {capacity : LoadVector Float}
    {rs : List (Replica Float)}
    {host rack : LooseText} {alive : Bool} {document : Document}
    (hid : (Document.int id).Inside document)
    (h : Broker.ofParts id capacity (rs.map (id, ·)) host rack alive = .error e) :
    e.Concerns document := by
  have hplaced : (rs.map (id, ·)).find? (fun (claimed, _) => claimed ≠ id) = none := by
    simp
  unfold Broker.ofParts Broker.make at h
  rw [hplaced] at h
  split at h
  · cases h
  next refusal hrefusal =>
    cases h
    split at hrefusal
    · cases hrefusal
      exact .of_quoted rfl rfl hid
    rcases bind_eq_error_iff.mp hrefusal with hhost | ⟨_, -, hrefusal⟩
    · unfold Broker.hostNamed at hhost
      split at hhost
      · split at hhost
        · cases hhost
        · cases hhost
          exact .of_plain rfl rfl
      · cases hhost
    · cases hrefusal

theorem inside_replicaEntries {entry replica : Document} (h : replica ∈ replicaEntries entry) :
    replica.Inside entry := by
  unfold replicaEntries itemsOf at h
  split at h
  next items hitems =>
    cases entry with
    | object fields => exact (inside_list h).trans (inside_of_find? hitems)
    | _ => cases hitems
  · cases h

theorem concerns_broker [Limits] {document : Document} (h : Broker.ofDocument document = .error e) :
    e.Concerns document := by
  unfold Broker.ofDocument at h
  split at h
  next fields =>
    rcases bind_eq_error_iff.mp h with h | ⟨id, hid, h⟩
    · exact concerns_requireInteger (by decide) h
    have hinside := inside_int (requireInteger_eq_ok_iff.mp hid)
    rcases bind_eq_error_iff.mp h with h | ⟨items, hitems, h⟩
    · exact concerns_replicaItems hinside h
    rcases bind_eq_error_iff.mp h with h | ⟨capacity, -, h⟩
    · exact concerns_vectorField h
    rcases bind_eq_error_iff.mp h with h | ⟨rs, -, h⟩
    · obtain ⟨-, rfl⟩ := replicaItems_eq_ok_iff.mp hitems
      obtain ⟨replica, hmem, h⟩ := exists_of_mapM_eq_error h
      exact (concerns_replica h).mono (inside_replicaEntries hmem)
    rcases bind_eq_error_iff.mp h with h | ⟨host, -, h⟩
    · exact concerns_wordingOr h
    rcases bind_eq_error_iff.mp h with h | ⟨rack, -, h⟩
    · exact concerns_wordingOr h
    rcases bind_eq_error_iff.mp h with h | ⟨alive, -, h⟩
    · exact concerns_booleanOr h
    · exact concerns_ofParts hinside h
  · cases h
    exact .of_quoted rfl rfl (.refl _)

theorem concerns_windowsField [Limits] (h : Cluster.windowsField fields = .error e) :
    e.Concerns (.object fields) := by
  unfold Cluster.windowsField findD at h
  cases hvalue : find? "num_windows" fields with
  | none =>
    rw [hvalue] at h
    cases h
  | some value =>
    rw [hvalue] at h
    split at h
    · cases h
    · cases h
      exact .of_quoted rfl rfl (inside_of_find? hvalue)

/-- A number of windows other than the usual one is part of the snapshot. -/
theorem inside_windowsField {n : Int} (h : Cluster.windowsField fields = .ok n) (hn : n ≠ 1) :
    (Document.int n).Inside (.object fields) := by
  unfold Cluster.windowsField findD at h
  cases hvalue : find? "num_windows" fields with
  | none =>
    rw [hvalue] at h
    exact absurd (Except.ok.inj h).symm hn
  | some value =>
    rw [hvalue] at h
    cases value with
    | int m =>
      cases h
      exact inside_of_find? hvalue
    | _ => cases h

theorem concerns_ratio [Limits] {value : Document}
    (h : Cluster.requireRatio value = .error e ∨
      Cluster.requireRatio value = .ok () ∧ floatOf value = .error e) : e.Concerns value := by
  unfold Cluster.requireRatio floatOf at h
  cases hnumber : value.number with
  | number x => simp [hnumber] at h
  | tooLarge =>
    obtain rfl : SnapshotError.tooLarge = e := by simpa [hnumber] using h
    exact .of_tooLarge (exists_tooLarge hnumber)
  | notNumeric =>
    obtain rfl : SnapshotError.ratioNotNumeric value = e := by simpa [hnumber] using h
    exact .of_quoted rfl rfl (.refl _)

/-- The id of a broker is part of its entry, and so is the number of a partition that it leads. -/
theorem inside_broker [Limits] {entry : Document} {b : Broker Float}
    (h : Broker.ofDocument entry = .ok b) :
    (Document.int b.id).Inside entry ∧
      ∀ r ∈ b.leaders, (Document.int r.partition.partition).Inside entry := by
  obtain ⟨hid, hled⟩ := broker_eq h
  have hfield {key : String} {value entry : Document} (h : fieldOf? key entry = some value) :
      value.Inside entry := by
    cases entry with
    | object fields => exact inside_of_find? h
    | _ => cases h
  refine ⟨hfield hid.symm, fun r hr => ?_⟩
  have hmem : partitionFields r.partition ∈
      ((replicaEntries entry).filter leads).map partitionEntry := by
    rw [← hled]
    exact List.mem_map_of_mem (List.mem_map_of_mem hr)
  obtain ⟨replica, hreplica, heq⟩ := List.mem_map.mp hmem
  have hpart := inside_replicaEntries (List.mem_of_mem_filter hreplica)
  exact (hfield (congrArg Prod.snd heq)).trans hpart

/-- A refusal of a snapshot concerns the snapshot. -/
theorem concerns_cluster [Limits] (h : Cluster.ofDocument (.object fields) = .error e) :
    e.Concerns (.object fields) := by
  simp only [Cluster.ofDocument] at h
  split at h
  next items hitems =>
    have hratio := @inside_findD "monitored_partitions_ratio" (.float 1.0) fields rfl rfl
    rcases bind_eq_error_iff.mp h with h | ⟨_, hrequired, h⟩
    · exact (concerns_ratio (.inl h)).mono hratio
    rcases bind_eq_error_iff.mp h with h | ⟨windows, hwindows, h⟩
    · exact concerns_windowsField h
    rcases bind_eq_error_iff.mp h with h | ⟨ratio, -, h⟩
    · exact (concerns_ratio (.inr ⟨hrequired, h⟩)).mono hratio
    have hentry {entry : Document} (hmem : entry ∈ items) : entry.Inside (.object fields) :=
      (inside_list hmem).trans (inside_of_find? hitems)
    rcases bind_eq_error_iff.mp h with h | ⟨brokers, hbrokers, h⟩
    · obtain ⟨entry, hmem, h⟩ := exists_of_mapM_eq_error h
      exact (concerns_broker h).mono (hentry hmem)
    · split at h
      · cases h
      next refusal hrefusal =>
        cases h
        have hinside : ∀ b ∈ brokers, (Document.int b.id).Inside (.object fields) ∧
            ∀ r ∈ b.leaders, (Document.int r.partition.partition).Inside (.object fields) :=
          forall_of_mapM_eq_ok hbrokers fun entry hmem b hb =>
            ⟨(inside_broker hb).1.trans (hentry hmem),
              fun r hr => ((inside_broker hb).2 r hr).trans (hentry hmem)⟩
        rcases Cluster.refusal_cases hrefusal with
          rfl | ⟨hneg, rfl⟩ | ⟨b, hb, rfl⟩ | ⟨b, hb, r, hr, rfl⟩
        · exact .of_plain rfl rfl
        · exact .of_quoted rfl rfl (inside_windowsField hwindows (by omega))
        · exact .of_quoted rfl rfl (hinside b hb).1
        · exact .of_quoted rfl rfl ((hinside b hb).2 r hr)
  · cases h
    exact .of_plain rfl rfl

/-- A snapshot describes a cluster exactly if it has the right shape, its hosts and racks can be
written, and so can the id of a broker that needs a text. Any other is refused for an invalid value,
for a missing id, topic or partition, for a whole number that is too large, or, if it nests deeper
than can be written, for that. -/
theorem ofDocument_decided [Limits] (fields : List (LooseText × Document)) :
    ((∃ c, Cluster.ofDocument (.object fields) = .ok c) ↔
      IsSnapshot fields ∧ ∀ entry ∈ brokerEntries fields, IsWritable entry) ∧
    ∀ e, Cluster.ofDocument (.object fields) = .error e →
      e.fault.errorClass = .invalidValue ∨
        (e.fault.errorClass = .missingKey ∧
          (e = .missingKey "id" ∨ e = .missingKey "topic" ∨ e = .missingKey "partition")) ∨
        (e.fault.errorClass = .overflow ∧
          ∃ n ∈ (object fields).wholes, Decimal.ofWhole? n = none) ∨
        (e.fault.errorClass = .tooDeep ∧ Limits.literalDepth + 1 < (object fields).nesting) :=
  ⟨exists_cluster_iff, fun _ h => (concerns_cluster h).errorClass_cases⟩

/-- The fields of a snapshot with one broker that names a host. -/
def loneBroker (host : Document) : List (LooseText × Document) :=
  [("brokers", .list [.object [("id", .int 0), ("host", host)]])]

theorem brokerEntries_loneBroker (host : Document) :
    brokerEntries (loneBroker host) = [.object [("id", .int 0), ("host", host)]] := rfl

theorem isSnapshot_loneBroker (host : Document) : IsSnapshot (loneBroker host) := by
  refine ⟨⟨_, rfl⟩, nofun, nofun, ?_, ?_, ?_⟩
  · rw [brokerEntries_loneBroker, List.forall_mem_singleton]
    exact ⟨⟨_, rfl⟩, ⟨0, rfl, Int.le_refl 0⟩, nofun, nofun, nofun, nofun⟩
  · rw [brokerEntries_loneBroker]
    exact List.nodup_singleton _
  · rw [brokerEntries_loneBroker]
    exact List.nodup_nil

/-- A snapshot with one broker is accepted through its shape, and one without brokers is refused. -/
theorem ofDocument_decided_loneBroker :
    let _ : Limits := Limits.measured
    (∃ c, Cluster.ofDocument (.object (loneBroker (.string "a"))) = .ok c) ∧
      ∃ e, Cluster.ofDocument (.object []) = .error e ∧ e.fault.errorClass = .invalidValue := by
  intro _
  have hwritable : ∀ entry ∈ brokerEntries (loneBroker (.string "a")), IsWritable entry := by
    rw [brokerEntries_loneBroker, List.forall_mem_singleton]
    refine ⟨?_, nofun, ?_⟩
    · rintro _ ⟨⟩
      exact ⟨by decide, nofun⟩
    · rintro _ - (h | h)
      · exact absurd h (by decide)
      · exact absurd rfl h
  refine ⟨(ofDocument_decided _).1.mpr ⟨isSnapshot_loneBroker _, hwritable⟩, _, rfl, ?_⟩
  rcases (ofDocument_decided []).2 _ rfl with h | ⟨h, -⟩ | ⟨h, -⟩ | ⟨h, -⟩
  · exact h
  all_goals cases h

/-- A snapshot of the right shape is refused where the host is a whole number with one digit too
many for it to be written. -/
theorem loneBroker_longHost_refused :
    let _ : Limits := Limits.measured
    let host : Document := .int (digitLimit : Nat)
    IsSnapshot (loneBroker host) ∧
      ¬∃ c, Cluster.ofDocument (.object (loneBroker host)) = .ok c := by
  intro _ host
  refine ⟨isSnapshot_loneBroker _, fun h => ?_⟩
  have hwritable := (exists_cluster_iff.mp h).2 _ (List.mem_singleton.mpr rfl)
  have hwhole := (hwritable.host _ rfl).wholes _ (List.mem_singleton.mpr rfl)
  rw [Int.natAbs_natCast] at hwhole
  exact absurd hwhole (Nat.lt_irrefl _)

end Snapshot

end ClusterBalance
