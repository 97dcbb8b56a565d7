import Mathlib.Data.List.Nodup
import ClusterBalance.Cluster

/-! Which brokers make a cluster. Main statements: the conditions under which a cluster is made do
not depend on the order of the brokers, and the brokers of a cluster stand in the order of their
ids, which differ. -/

namespace ClusterBalance

variable {α : Type}

/-- A broker whose parts a snapshot can hold: no amount is below zero, and it has a host. -/
structure Broker.Admitted [Scalar α] (b : Broker α) : Prop where
  capacity : b.capacity.negative? = none
  load : ∀ r ∈ b.replicas, r.load.negative? = none
  host : b.host ≠ ""

namespace Cluster

/-- A cluster that is made of admitted brokers. -/
def Accepted [Scalar α] (c : Cluster α) : Prop :=
  ∃ brokers ratio windows, (∀ b ∈ brokers, b.Admitted) ∧ make brokers ratio windows = .ok c

theorem inOrder_perm (brokers : List (Broker α)) : (inOrder brokers).Perm brokers :=
  List.mergeSort_perm brokers _

theorem ledPartitions_inOrder_perm (brokers : List (Broker α)) :
    (ledPartitions (inOrder brokers)).Perm (ledPartitions brokers) :=
  (inOrder_perm brokers).flatMap_right _

theorem inOrder_pairwise {brokers : List (Broker α)} (h : (brokers.map (·.id)).Nodup) :
    (inOrder brokers).Pairwise fun a b => a.id < b.id := by
  have hle : (inOrder brokers).Pairwise fun a b => a.id ≤ b.id := by
    have htrans (a b c : Broker α) (hab : decide (a.id ≤ b.id) = true)
        (hbc : decide (b.id ≤ c.id) = true) : decide (a.id ≤ c.id) = true := by
      rw [decide_eq_true_eq] at *
      omega
    have htotal (a b : Broker α) : (decide (a.id ≤ b.id) || decide (b.id ≤ a.id)) = true := by
      rw [Bool.or_eq_true, decide_eq_true_eq, decide_eq_true_eq]
      omega
    exact (List.pairwise_mergeSort htrans htotal brokers).imp fun hab => of_decide_eq_true hab
  have hne : (inOrder brokers).Pairwise fun a b => a.id ≠ b.id :=
    List.pairwise_map.mp (((inOrder_perm brokers).map Broker.id).nodup_iff.mpr h)
  exact (hle.and hne).imp fun ⟨hab, hab'⟩ => Nat.lt_of_le_of_ne hab hab'

/-- What has to hold of brokers, a ratio and a number of windows that make a cluster. -/
theorem make_eq_ok_iff {brokers : List (Broker α)} {ratio : Float} {windows : Int}
    {c : Cluster α} :
    make brokers ratio windows = .ok c ↔
      (0.0 ≤ ratio ∧ ratio ≤ 1.0) ∧ 0 ≤ windows ∧ (brokers.map (·.id)).Nodup ∧
        (ledPartitions brokers).Nodup ∧ c = ⟨inOrder brokers, ratio, windows.toNat⟩ := by
  have hids := firstRepeat?_eq_none_iff [] (brokers.map (·.id))
  have hled := firstRepeat?_eq_none_iff [] (ledPartitions (inOrder brokers))
  rw [(ledPartitions_inOrder_perm brokers).nodup_iff] at hled
  simp only [List.not_mem_nil, not_false_eq_true, implies_true, and_true] at hids hled
  unfold make
  by_cases hratio : 0.0 ≤ ratio ∧ ratio ≤ 1.0
  · by_cases hwindows : windows < 0
    · have hnot : ¬0 ≤ windows := Int.not_le.mpr hwindows
      simp [hratio, hwindows, hnot]
    · rw [if_neg (not_not_intro hratio), if_neg hwindows]
      cases hi : firstRepeat? [] (brokers.map (·.id)) with
      | some id => simp [← hids, hi]
      | none =>
        cases hl : firstRepeat? [] (ledPartitions (inOrder brokers)) with
        | some p => simp [← hled, hl]
        | none =>
          simp only [Except.ok.injEq, ← hids, hi, ← hled, hl, hratio, true_and]
          exact ⟨fun h => ⟨Int.not_lt.mp hwindows, h.symm⟩, fun h => h.2.symm⟩
  · rw [if_pos hratio]
    exact ⟨nofun, fun h => absurd h.1 hratio⟩

theorem mem_of_firstRepeat? {β : Type} [DecidableEq β] {seen xs : List β} {x : β}
    (h : firstRepeat? seen xs = some x) : x ∈ xs := by
  induction xs generalizing seen with
  | nil => cases h
  | cons x' xs ih =>
    rw [firstRepeat?] at h
    split at h
    · cases h
      exact List.mem_cons_self
    · exact List.mem_cons_of_mem x' (ih h)

/-- What a cluster is refused for is its ratio, its number of windows, the id of a broker or a
partition that some broker leads. -/
theorem refusal_cases {brokers : List (Broker α)} {ratio : Float} {windows : Int}
    {refusal : Refusal} (h : make brokers ratio windows = .error refusal) :
    refusal = .ratioOutside ratio ∨ (windows < 0 ∧ refusal = .negativeWindows windows) ∨
      (∃ b ∈ brokers, refusal = .repeatedBroker b.id) ∨
      ∃ b ∈ brokers, ∃ r ∈ b.leaders, refusal = .repeatedLeader r.partition := by
  unfold make at h
  split at h
  · exact .inl (Except.error.inj h).symm
  split at h
  next hwindows => exact .inr (.inl ⟨hwindows, (Except.error.inj h).symm⟩)
  split at h
  next id hid =>
    obtain ⟨b, hb, rfl⟩ := List.mem_map.mp (mem_of_firstRepeat? hid)
    exact .inr (.inr (.inl ⟨b, hb, (Except.error.inj h).symm⟩))
  split at h
  next p hp =>
    obtain ⟨b, hb, hled⟩ := List.mem_flatMap.mp (mem_of_firstRepeat? hp)
    obtain ⟨r, hr, rfl⟩ := List.mem_map.mp hled
    have hmem := (inOrder_perm brokers).mem_iff.mp hb
    exact .inr (.inr (.inr ⟨b, hmem, r, hr, (Except.error.inj h).symm⟩))
  · cases h

/-- A cluster whose brokers stand in the order of their ids is made of them. -/
theorem make_of_ordered {c : Cluster α}
    (hratio : 0.0 ≤ c.monitoredRatio ∧ c.monitoredRatio ≤ 1.0)
    (hids : c.brokers.Pairwise fun a b => a.id < b.id) (hled : (ledPartitions c.brokers).Nodup) :
    make c.brokers c.monitoredRatio c.windows = .ok c := by
  -- sorting leaves alone what is in order
  have hordered : inOrder c.brokers = c.brokers :=
    List.mergeSort_of_pairwise (hids.imp fun hlt => decide_eq_true (Nat.le_of_lt hlt))
  have hdiffer : (c.brokers.map (·.id)).Nodup :=
    List.pairwise_map.mpr (hids.imp fun hlt => Nat.ne_of_lt hlt)
  rw [make_eq_ok_iff, hordered, Int.toNat_natCast]
  exact ⟨hratio, by omega, hdiffer, hled, rfl⟩

/-- A search through brokers in the order of their ids ends at the lowest id that has something. -/
theorem findSome?_eq_some_iff_of_ordered {β : Type} {bs : List (Broker α)}
    (h : bs.Pairwise fun a b => a.id < b.id) {f : Broker α → Option β} {y : β} :
    bs.findSome? f = some y ↔
      ∃ b ∈ bs, f b = some y ∧ ∀ b' ∈ bs, b'.id < b.id → f b' = none := by
  rw [List.findSome?_eq_some_iff]
  constructor
  · rintro ⟨before, b, after, rfl, hy, hnone⟩
    obtain ⟨-, hb, -⟩ := List.pairwise_append.mp h
    refine ⟨b, by simp, hy, fun b' hb' hlt => ?_⟩
    rcases List.mem_append.mp hb' with hbefore | hrest
    · exact hnone b' hbefore
    rcases List.mem_cons.mp hrest with rfl | hafter
    · exact absurd hlt (Nat.lt_irrefl _)
    · exact absurd (List.rel_of_pairwise_cons hb hafter) (Nat.lt_asymm hlt)
  · rintro ⟨b, hb, hy, hnone⟩
    obtain ⟨before, after, rfl⟩ := List.append_of_mem hb
    obtain ⟨-, -, hbefore⟩ := List.pairwise_append.mp h
    refine ⟨before, b, after, rfl, hy, fun b' hb' => hnone b' ?_ ?_⟩
    · exact List.mem_append_left _ hb'
    · exact hbefore b' hb' b List.mem_cons_self

namespace Accepted

variable [Scalar α] {c : Cluster α}

theorem admitted (h : c.Accepted) : ∀ b ∈ c.brokers, b.Admitted := by
  obtain ⟨brokers, ratio, windows, hbrokers, hmake⟩ := h
  obtain ⟨-, -, -, -, rfl⟩ := make_eq_ok_iff.mp hmake
  exact fun b hb => hbrokers b ((inOrder_perm brokers).mem_iff.mp hb)

theorem pairwise_id (h : c.Accepted) : c.brokers.Pairwise fun a b => a.id < b.id := by
  obtain ⟨brokers, ratio, windows, -, hmake⟩ := h
  obtain ⟨-, -, hids, -, rfl⟩ := make_eq_ok_iff.mp hmake
  exact inOrder_pairwise hids

end Accepted

end Cluster

end ClusterBalance
