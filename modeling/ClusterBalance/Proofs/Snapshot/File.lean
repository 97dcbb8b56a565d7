import ClusterBalance.Proofs.Document.Within
import ClusterBalance.Proofs.Snapshot.Refusal

/-! Snapshot files. Main statements: a file is refused for what is wrong with its text, for an
invalid value or for a missing key, unless a value that is to be written nests too deep; and the
brokers of a file that is accepted are no more than there are words. -/

namespace ClusterBalance

open Document Json

/-- A refusal of a value that nests too deep to be written: the text of a host or of a rack, or a
value that the refusal quotes. -/
def SnapshotError.TooDeep [Limits] (e : SnapshotError) : Prop :=
  e = .noLiteral .tooDeep ∨ ∃ value ∈ e.quotes, Limits.literalDepth + 1 < value.nesting

theorem SnapshotError.not_tooDeep [Limits] {e : SnapshotError} (hquotes : e.quotes = [])
    (h : e ≠ .noLiteral .tooDeep) : ¬e.TooDeep := by
  rintro (he | ⟨value, hvalue, -⟩)
  · exact h he
  · rw [hquotes] at hvalue
    cases hvalue

namespace Snapshot

variable {e : SnapshotError} {document : Document}

theorem natAbs_le_of_inRange {numbers : List Int} (h : InRange wordRange numbers) :
    ∀ n ∈ numbers, n.natAbs ≤ 2 ^ 64 := by
  intro n hn
  obtain ⟨hlow, hhigh⟩ := h n hn
  simp only [wordRange] at hlow hhigh
  omega

theorem lt_digitLimit {n : Int} (h : n.natAbs ≤ 2 ^ 64) : n.natAbs < digitLimit :=
  Nat.lt_of_le_of_lt h (by decide +kernel)

theorem exists_ofWhole?_of_le {n : Int} (h : n.natAbs ≤ 2 ^ 64) :
    ∃ x, Decimal.ofWhole? n = some x := by
  have hlog : n.natAbs.log2 < 65 := by
    by_cases hzero : n.natAbs = 0
    · rw [hzero]
      decide
    · exact (Nat.log2_lt hzero).mpr (by omega)
  exact Decimal.exists_ofWhole?_eq_some (by omega)

/-- Without whole numbers of too many digits, a value has a literal text unless it nests too
deep. -/
theorem literal?_cases [Limits] {value : Document} (h : InRange wordRange value.wholes) :
    Limits.literalDepth + 1 < value.nesting ∧ value.literal? = .error .tooDeep ∨
      ¬Limits.literalDepth + 1 < value.nesting ∧ ∃ text, value.literal? = .ok text := by
  cases hliteral : value.literal? with
  | ok text =>
    obtain ⟨⟨⟩, hcheck, -⟩ := bind_eq_ok_iff.mp hliteral
    have hnesting := ((checkLiteral_eq_ok_iff ..).mp hcheck).1
    exact .inr ⟨Nat.not_lt.mpr hnesting, text, rfl⟩
  | error cause =>
    have hcause := holds_of_literal? hliteral
    cases cause with
    | tooDeep => exact .inl ⟨hcause, rfl⟩
    | tooManyDigits =>
      obtain ⟨n, hmem, hn⟩ := hcause
      exact absurd (lt_digitLimit (natAbs_le_of_inRange h n hmem)) (Nat.not_lt.mpr hn)

/-- Without whole numbers of too many digits, values are written unless one of them nests too
deep. -/
theorem mapM_literal?_cases [Limits] {values : List Document}
    (h : ∀ value ∈ values, InRange wordRange value.wholes) :
    (∃ value ∈ values, Limits.literalDepth + 1 < value.nesting) ∧
        values.mapM literal? = .error .tooDeep ∨
      (¬∃ value ∈ values, Limits.literalDepth + 1 < value.nesting) ∧
        ∃ texts, values.mapM literal? = .ok texts := by
  cases htexts : values.mapM literal? with
  | ok texts =>
    refine .inr ⟨?_, texts, rfl⟩
    rintro ⟨value, hmem, hdeep⟩
    obtain ⟨text, htext⟩ := exists_mapM_eq_ok_iff.mp ⟨texts, htexts⟩ value hmem
    rcases literal?_cases (h value hmem) with ⟨-, hliteral⟩ | ⟨hnot, -⟩
    · cases htext.symm.trans hliteral
    · exact hnot hdeep
  | error cause =>
    obtain ⟨value, hmem, hcause⟩ := exists_of_mapM_eq_error htexts
    rcases literal?_cases (h value hmem) with ⟨hdeep, hliteral⟩ | ⟨-, text, hliteral⟩
    · cases hcause.symm.trans hliteral
      exact .inl ⟨⟨value, hmem, hdeep⟩, rfl⟩
    · cases hcause.symm.trans hliteral

/-- A refusal of a document whose whole numbers fit a word is that of a value that nests too deep,
or that of an invalid value or a missing key. -/
theorem errorClass_of_inRange [Limits] (h : e.Concerns document)
    (hrange : InRange wordRange document.wholes) :
    e.TooDeep ∧ e.fault.errorClass = .tooDeep ∨
      ¬e.TooDeep ∧ (e.fault.errorClass = .invalidValue ∨ e.fault.errorClass = .missingKey) := by
  have hquotes : ∀ value ∈ e.quotes, InRange wordRange value.wholes := fun value hvalue n hn =>
    hrange n ((h.quoted value hvalue).wholes hn)
  have hclass := e.errorClass_fault
  rcases mapM_literal?_cases hquotes with ⟨hdeep, hliteral⟩ | ⟨hnot, texts, hliteral⟩
  · rw [hliteral] at hclass
    exact .inl ⟨.inr hdeep, hclass⟩
  rw [hliteral] at hclass
  by_cases he : e = .noLiteral .tooDeep
  · rw [he] at hclass
    rw [he]
    exact .inl ⟨.inl rfl, hclass⟩
  refine .inr ⟨fun htoo => htoo.elim he hnot, ?_⟩
  rcases h.errorClass_cases with hc | ⟨hc, -⟩ | ⟨-, n, hmem, hn⟩ | ⟨hc, -⟩
  · exact .inl hc
  · exact .inr hc
  · obtain ⟨x, hx⟩ := exists_ofWhole?_of_le (natAbs_le_of_inRange hrange n hmem)
    rw [hx] at hn
    cases hn
  · rw [hclass] at hc
    cases e with
    | noLiteral cause =>
      cases cause with
      | tooManyDigits => cases hc
      | tooDeep => exact absurd rfl he
    | _ => cases hc

theorem inRange_of_read? {text : String} (h : read? strict text = some document) :
    InRange wordRange document.wholes :=
  inRange_read rfl (read_of_read? h)

/-- A snapshot file is refused for a value that nests too deep, or for something that counts as an
invalid value or a missing key. -/
theorem errorClass_ofFile [Limits] {file : String} {text? : Option String}
    (h : Cluster.ofFile file text? = .error e) :
    e.TooDeep ∧ e.fault.errorClass = .tooDeep ∨
      ¬e.TooDeep ∧ (e.fault.errorClass.isInvalidValue ∨ e.fault.errorClass = .missingKey) := by
  cases text? with
  | none =>
    cases h
    exact .inr ⟨SnapshotError.not_tooDeep rfl nofun, .inl rfl⟩
  | some text =>
    simp only [Cluster.ofFile, Cluster.ofText] at h
    split at h
    · cases h
      exact .inr ⟨SnapshotError.not_tooDeep rfl nofun, .inl rfl⟩
    next fields hread =>
      rcases errorClass_of_inRange (concerns_cluster h) (inRange_of_read? hread) with
        hdeep | ⟨hnot, hclass | hclass⟩
      · exact .inl hdeep
      · exact .inr ⟨hnot, .inl (by rw [hclass]; rfl)⟩
      · exact .inr ⟨hnot, .inr hclass⟩
    · cases h
      exact .inr ⟨SnapshotError.not_tooDeep rfl nofun, .inl rfl⟩

theorem id_mem_wholes [Limits] {fields : List (LooseText × Document)} {entry : Document}
    {b : Broker Float}
    (hentry : entry ∈ brokerEntries fields) (h : Broker.ofDocument entry = .ok b) :
    (b.id : Int) ∈ (object fields).wholes := by
  have hid := (broker_eq h).1
  have hinside : entry.Inside (object fields) := by
    unfold brokerEntries itemsOf at hentry
    split at hentry
    next items hitems => exact (inside_list hentry).trans (inside_of_find? hitems)
    · cases hentry
  cases entry with
  | object entryFields =>
    have hpart := (inside_of_find? hid.symm).trans hinside
    exact hpart.wholes (by simp [wholes])
  | _ => cases hid

/-- There are no more brokers than words, for their ids differ. -/
theorem length_brokers_le [Limits] {file : String} {text? : Option String} {c : Cluster Float}
    (h : Cluster.ofFile file text? = .ok c) : c.brokers.length ≤ 2 ^ 64 := by
  cases text? with
  | none => cases h
  | some text =>
    simp only [Cluster.ofFile, Cluster.ofText] at h
    split at h
    · cases h
    next fields hread =>
      have hrange := inRange_of_read? hread
      have hitems := find?_brokers_of_ok h
      obtain ⟨windows, ratio, brokers, -, -, hbrokers, hmake⟩ := (ofDocument_eq_ok_iff hitems).mp h
      obtain ⟨-, -, hids, -, rfl⟩ := Cluster.make_eq_ok_iff.mp hmake
      have hlt : ∀ b ∈ brokers, b.id < 2 ^ 64 := by
        refine forall_of_mapM_eq_ok hbrokers fun entry hentry b hb => ?_
        have hid := (hrange b.id (id_mem_wholes hentry hb)).2
        simp only [wordRange] at hid
        omega
      have hsubset : brokers.map (·.id) ⊆ List.range (2 ^ 64) := by
        intro id hid
        obtain ⟨b, hb, rfl⟩ := List.mem_map.mp hid
        exact List.mem_range.mpr (hlt b hb)
      calc (Cluster.inOrder brokers).length = (brokers.map (·.id)).length := by
            rw [(Cluster.inOrder_perm brokers).length_eq, List.length_map]
        _ ≤ (List.range (2 ^ 64)).length := hids.length_le_of_subset hsubset
        _ = 2 ^ 64 := List.length_range
    · cases h

theorem exists_ofWhole?_aliveBrokers [Limits] {file : String} {text? : Option String}
    {c : Cluster Float}
    (h : Cluster.ofFile file text? = .ok c) :
    ∃ x, Decimal.ofWhole? c.aliveBrokers.length = some x := by
  refine exists_ofWhole?_of_le ?_
  rw [Int.natAbs_natCast]
  exact Nat.le_trans (List.length_filter_le ..) (length_brokers_le h)

end Snapshot

end ClusterBalance
