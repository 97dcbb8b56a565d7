import ClusterBalance.Proofs.Cluster.Answers
import ClusterBalance.Proofs.Document.Json.Size
import ClusterBalance.Proofs.Snapshot.Acceptance

/-! The size of what a snapshot describes. Main statement: a cluster has no more brokers and
replicas together than the text that it is read from has characters. -/

namespace ClusterBalance.Snapshot

open Document Json

variable {fields : List (LooseText × Document)} {entry : Document} {c : Cluster Float}

theorem length_le_numItemsOf (items : List Document) : items.length ≤ numItemsOf items := by
  induction items with
  | nil => exact Nat.le_refl _
  | cons item rest ih =>
    rw [List.length_cons, numItemsOf]
    omega

theorem length_eq_of_mapM_eq_ok {ε β γ : Type} {f : β → Except ε γ} {xs : List β} {ys : List γ}
    (h : xs.mapM f = .ok ys) : ys.length = xs.length := by
  have hunits : ys.map (fun _ => ()) = xs.map fun _ => () :=
    map_eq_of_mapM_eq_ok h fun _ _ _ _ => rfl
  simpa using congrArg List.length hunits

/-- A broker has no more replicas than its entry has items. -/
theorem numReplicas_le [Limits] {b : Broker Float} (h : Broker.ofDocument entry = .ok b) :
    b.numReplicas ≤ entry.numItems := by
  obtain ⟨fields, rfl, hread⟩ := broker_eq_ok_iff.mp h
  have hlist : numItemsOf (replicaEntries (.object fields)) ≤ numItemsIn fields := by
    unfold replicaEntries itemsOf fieldOf?
    split
    next items hitems => exact numItems_le_of_find? hitems
    next => exact Nat.zero_le _
  calc b.replicas.length
      = (replicaEntries (.object fields)).length := length_eq_of_mapM_eq_ok hread.replicas
    _ ≤ numItemsOf (replicaEntries (.object fields)) := length_le_numItemsOf _
    _ ≤ numItemsIn fields := hlist

theorem sum_le_numItemsOf [Limits] {entries : List Document} {brokers : List (Broker Float)}
    (h : entries.mapM Broker.ofDocument = .ok brokers) :
    (brokers.map fun b => b.numReplicas + 1).sum ≤ numItemsOf entries := by
  induction entries generalizing brokers with
  | nil =>
    cases h
    exact Nat.le_refl _
  | cons entry rest ih =>
    rw [mapM_cons_eq] at h
    obtain ⟨b, hb, h⟩ := bind_eq_ok_iff.mp h
    obtain ⟨more, hmore, h⟩ := bind_eq_ok_iff.mp h
    cases h
    have hle := numReplicas_le hb
    have hrest := ih hmore
    rw [List.map_cons, List.sum_cons, numItemsOf]
    omega

theorem size_le [Limits] (h : Cluster.ofDocument (.object fields) = .ok c) :
    c.brokers.length + c.numReplicas ≤ (Document.object fields).numItems := by
  have hitems := find?_brokers_of_ok h
  obtain ⟨windows, ratio, brokers, -, -, hbrokers, hmake⟩ := (ofDocument_eq_ok_iff hitems).mp h
  obtain ⟨-, -, -, -, rfl⟩ := Cluster.make_eq_ok_iff.mp hmake
  have hperm := (Cluster.inOrder_perm brokers).map fun b => b.numReplicas + 1
  have hsum : ((Cluster.inOrder brokers).map fun b => b.numReplicas + 1).sum =
      (Cluster.inOrder brokers).length +
        Cluster.numReplicas ⟨Cluster.inOrder brokers, ratio, windows.toNat⟩ := by
    rw [Cluster.numReplicas, Cluster.totalCount_eq_sum, List.sum_map_add]
    simp [Nat.add_comm]
  calc (Cluster.inOrder brokers).length + _ = _ := hsum.symm
    _ = (brokers.map fun b => b.numReplicas + 1).sum := hperm.sum_nat
    _ ≤ numItemsOf (brokerEntries fields) := sum_le_numItemsOf hbrokers
    _ ≤ numItemsIn fields := numItems_le_of_find? hitems

/-- A cluster is read from the object that its text is read as. -/
theorem exists_of_ofText [Limits] {file text : String} (h : Cluster.ofText file text = .ok c) :
    ∃ fields, read strict text = .ok (.object fields) ∧
      Cluster.ofDocument (.object fields) = .ok c := by
  unfold Cluster.ofText at h
  split at h
  next => cases h
  next fields hread => exact ⟨fields, read_of_read? hread, h⟩
  next => cases h

/-- A cluster has no more brokers and replicas than the text that it is read from has
characters. -/
theorem size_le_length [Limits] {file text : String} (h : Cluster.ofText file text = .ok c) :
    c.brokers.length + c.numReplicas ≤ text.length := by
  obtain ⟨fields, hread, hdocument⟩ := exists_of_ofText h
  exact (size_le hdocument).trans (numItems_le_of_read hread)

end ClusterBalance.Snapshot
