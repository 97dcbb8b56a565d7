import ClusterBalance.Cluster.Tables
import ClusterBalance.Proofs.Chain
import ClusterBalance.Proofs.Cluster.Admission

/-! What the tables of a cluster hold. Main statements: the tables of some brokers are refused for
the reason for which the brokers make no cluster, and otherwise a look into them gives the answer
of the search through the brokers. -/

namespace ClusterBalance

namespace Table

variable {κ β γ : Type} [DecidableEq κ]

theorem lookup_enter (t : Table κ β) (key k : κ) (next : Option β → β) :
    (t.enter key next).lookup k =
      if k = key then some (next (t.lookup key)) else t.lookup k := by
  induction t with
  | nil =>
    by_cases h : k = key
    · simp [enter, h]
    · simp [enter, h, List.lookup_cons, beq_false_of_ne h]
  | cons entry rest ih =>
    obtain ⟨k', value⟩ := entry
    by_cases hkey : k' = key
    · subst hkey
      by_cases h : k = k'
      · simp [enter, h]
      · simp [enter, h, List.lookup_cons, beq_false_of_ne h]
    · rw [enter, if_neg hkey, List.lookup_cons, List.lookup_cons, List.lookup_cons, ih]
      by_cases h : k = k'
      · subst h
        simp [hkey]
      · simp [beq_false_of_ne h, beq_false_of_ne (Ne.symm hkey)]

theorem keys_enter (t : Table κ β) (key : κ) (next : Option β → β) :
    (t.enter key next).map (·.1) =
      if key ∈ t.map (·.1) then t.map (·.1) else t.map (·.1) ++ [key] := by
  induction t with
  | nil => simp [enter]
  | cons entry rest ih =>
    obtain ⟨k', value⟩ := entry
    by_cases hkey : k' = key
    · simp [enter, hkey]
    · rw [enter, if_neg hkey, List.map_cons, ih]
      by_cases hmem : key ∈ rest.map (·.1)
      · simp [hmem]
      · simp [hmem, Ne.symm hkey]

theorem lookup_eq_none_iff_not_mem {t : Table κ β} {k : κ} :
    t.lookup k = none ↔ k ∉ t.map (·.1) := by
  rw [List.lookup_eq_none_iff, List.mem_map]
  simp only [bne_iff_ne, ne_eq, not_exists, not_and]
  exact ⟨fun h entry hmem heq => h entry hmem heq.symm,
    fun h entry hmem heq => h entry hmem heq.symm⟩

theorem enter_of_new {t : Table κ β} {key : κ} {next : Option β → β} (h : key ∉ t.map (·.1)) :
    t.enter key next = t ++ [(key, next none)] := by
  induction t with
  | nil => rfl
  | cons entry rest ih =>
    obtain ⟨k', value⟩ := entry
    rw [List.map_cons, List.mem_cons, not_or] at h
    rw [enter, if_neg (Ne.symm h.1), ih h.2]
    rfl

section Passes

variable (key : γ → κ) (next : γ → Option β → β)

/-- After a pass the value of a key is made by the items of that key alone, in their order. -/
theorem lookup_foldl_enter (xs : List γ) (t : Table κ β) (k : κ) :
    (xs.foldl (fun t x => t.enter (key x) (next x)) t).lookup k =
      (xs.filter (key · = k)).foldl (fun value x => some (next x value)) (t.lookup k) := by
  induction xs generalizing t with
  | nil => rfl
  | cons x xs ih =>
    rw [List.foldl_cons, ih, lookup_enter]
    by_cases h : key x = k
    · simp [h]
    · simp [h, Ne.symm h]

/-- After a pass the keys are those of the items, each where it came first. -/
theorem keys_foldl_enter (xs : List γ) (t : Table κ β) :
    (xs.foldl (fun t x => t.enter (key x) (next x)) t).map (·.1) =
      t.map (·.1) ++ ((xs.map key).filter (· ∉ t.map (·.1))).eraseDups := by
  induction xs generalizing t with
  | nil => simp
  | cons x xs ih =>
    rw [List.foldl_cons, ih, keys_enter, List.map_cons]
    by_cases h : key x ∈ t.map (·.1)
    · rw [if_pos h, List.filter_cons_of_neg (by simpa using h)]
    · -- behind an item with a new key, its key is no longer a new one
      have hlater (k : κ) : decide (k ∉ t.map (·.1) ++ [key x]) =
          (!k == key x && decide (k ∉ t.map (·.1))) := by
        rw [Bool.eq_iff_iff]
        simp [and_comm]
      rw [if_neg h, List.filter_cons_of_pos (by simpa using h), List.eraseDups_cons,
        List.filter_filter, List.append_assoc]
      simp only [hlater]
      rfl

/-- A pass that enters new keys only ends at the first key that comes again. -/
theorem foldlM_enterNew {ε : Type} (refusal : κ → ε) (value : γ → β) (xs : List γ) (t : Table κ β)
    (seen : List κ) (hseen : ∀ k, k ∈ seen ↔ k ∈ t.map (·.1)) :
    xs.foldlM (fun t x => t.enterNew refusal (key x) (value x)) t =
      match firstRepeat? seen (xs.map key) with
      | some k => .error (refusal k)
      | none => .ok (t ++ xs.map fun x => (key x, value x)) := by
  -- the search puts the keys it has seen in front, the pass puts them behind, so that the two agree
  -- on the keys but not on their order
  induction xs generalizing t seen with
  | nil => simp [firstRepeat?]; rfl
  | cons x xs ih =>
    rw [List.foldlM_cons, List.map_cons, firstRepeat?, enterNew]
    by_cases hmem : key x ∈ t.map (·.1)
    · have hsome : (t.lookup (key x)).isSome = true := by
        rw [Option.isSome_iff_ne_none]
        exact fun hnone => lookup_eq_none_iff_not_mem.mp hnone hmem
      rw [if_pos hsome, if_pos ((hseen _).mpr hmem)]
      rfl
    · have hnone := lookup_eq_none_iff_not_mem.mpr hmem
      rw [if_neg (by simp [hnone]), if_neg (mt (hseen _).mp hmem), ok_bind,
        enter_of_new hmem]
      rw [ih (t ++ [(key x, value x)]) (key x :: seen)]
      · simp
      · intro k
        rw [List.map_append, List.mem_append, List.mem_cons, hseen k]
        simp [or_comm]

end Passes

/-- A table whose keys differ is made of what a look at each of them shows. -/
theorem eq_map_lookup {t : Table κ β} {value : κ → β} (hkeys : (t.map (·.1)).Nodup)
    (h : ∀ k ∈ t.map (·.1), t.lookup k = some (value k)) :
    t = (t.map (·.1)).map fun k => (k, value k) := by
  induction t with
  | nil => rfl
  | cons entry rest ih =>
    obtain ⟨k, v⟩ := entry
    rw [List.map_cons, List.nodup_cons] at hkeys
    have hv : v = value k := by simpa using h k List.mem_cons_self
    have hrest : rest = (rest.map (·.1)).map fun k => (k, value k) := by
      apply ih hkeys.2
      intro k' hk'
      have hne : k' ≠ k := fun heq => hkeys.1 (heq ▸ hk')
      have hlook := h k' (List.mem_cons_of_mem k hk')
      rwa [List.lookup_cons, beq_false_of_ne hne] at hlook
    rw [List.map_cons, List.map_cons, ← hrest, hv]

theorem lookup_map_entries (key : γ → κ) (value : γ → β) (xs : List γ) (k : κ) :
    (xs.map fun x => (key x, value x)).lookup k = (xs.find? (key · = k)).map value := by
  induction xs with
  | nil => rfl
  | cons x xs ih =>
    rw [List.map_cons, List.lookup_cons, List.find?_cons, ih]
    by_cases h : key x = k
    · simp [h]
    · simp [h, beq_false_of_ne (Ne.symm h)]

end Table

theorem foldlM_flatMap_eq {ε β γ δ : Type} (xs : List γ) (f : γ → List δ)
    (step : β → δ → Except ε β) (s : β) :
    (xs.flatMap f).foldlM step s = xs.foldlM (fun s x => (f x).foldlM step s) s := by
  induction xs generalizing s with
  | nil => rfl
  | cons x xs ih =>
    rw [List.flatMap_cons, List.foldlM_append, List.foldlM_cons]
    simp only [ih]

namespace Cluster

variable {α : Type}

/-- The replicas of some brokers, each with the id of its broker. -/
def placementsOn (brokers : List (Broker α)) : List (Nat × Replica α) :=
  brokers.flatMap fun b => b.replicas.map fun r => (b.id, r)

theorem ledPartitions_eq (brokers : List (Broker α)) :
    ledPartitions brokers =
      ((placementsOn brokers).filter (·.2.leader)).map (·.2.partition) := by
  simp only [ledPartitions, placementsOn, Broker.leaders, List.filter_flatMap, List.map_flatMap,
    List.filter_map, List.map_map, Function.comp_def]

namespace Tables

/-- Counts a replica for its topic. -/
def countReplica (counts : Table LooseText Nat) (x : Nat × Replica α) : Table LooseText Nat :=
  counts.enter x.2.topic fun n => n.getD 0 + 1

theorem enterReplica_follower (t : Table TopicPartition (Nat × Replica α) × Table LooseText Nat)
    (x : Nat × Replica α) (h : x.2.leader = false) :
    enterReplica x.1 t x.2 = .ok (t.1, countReplica t.2 x) := by
  rw [enterReplica, h]
  rfl

theorem enterReplica_leader (t : Table TopicPartition (Nat × Replica α) × Table LooseText Nat)
    (x : Nat × Replica α) (h : x.2.leader = true) :
    enterReplica x.1 t x.2 = (Table.enterNew Refusal.repeatedLeader t.1 x.2.partition x >>=
      fun leaders => .ok (leaders, countReplica t.2 x)) := by
  rw [enterReplica, h]
  rfl

/-- The pass over replicas counts all of them, and enters those that lead. -/
theorem foldlM_enterReplica (xs : List (Nat × Replica α))
    (t : Table TopicPartition (Nat × Replica α) × Table LooseText Nat) :
    xs.foldlM (fun t x => enterReplica x.1 t x.2) t =
      ((xs.filter (·.2.leader)).foldlM
        (fun leaders x => Table.enterNew Refusal.repeatedLeader leaders x.2.partition x) t.1 >>=
        fun leaders => .ok (leaders, xs.foldl countReplica t.2)) := by
  induction xs generalizing t with
  | nil => rfl
  | cons x xs ih =>
    rw [List.foldlM_cons, List.foldl_cons]
    cases hleader : x.2.leader with
    | false =>
      rw [enterReplica_follower _ _ hleader, ok_bind, ih,
        List.filter_cons_of_neg (by simp [hleader])]
    | true =>
      -- a refusal ends the pass before this replica is counted, and the tables are lost with it
      rw [enterReplica_leader _ _ hleader, List.filter_cons_of_pos (by simpa using hleader),
        List.foldlM_cons]
      cases Table.enterNew Refusal.repeatedLeader t.1 x.2.partition x with
      | error e => rfl
      | ok leaders =>
        rw [ok_bind, ok_bind, ih]
        rfl

theorem foldlM_enterBroker (brokers : List (Broker α)) :
    brokers.foldlM enterBroker [] =
      match firstRepeat? [] (brokers.map (·.id)) with
      | some id => .error (.repeatedBroker id)
      | none => .ok (brokers.map fun b => (b.id, b)) := by
  have hids := Table.foldlM_enterNew (fun b : Broker α => b.id) Refusal.repeatedBroker
    (fun b => b) brokers [] [] (by simp)
  apply hids.trans
  cases firstRepeat? [] (brokers.map (·.id)) <;> rfl

theorem foldlM_enterReplicas (brokers : List (Broker α)) :
    brokers.foldlM enterReplicas ([], []) =
      match firstRepeat? [] (ledPartitions brokers) with
      | some p => .error (.repeatedLeader p)
      | none => .ok
          (((placementsOn brokers).filter (·.2.leader)).map fun x => (x.2.partition, x),
            (placementsOn brokers).foldl countReplica []) := by
  have hflat : brokers.foldlM enterReplicas ([], []) =
      (placementsOn brokers).foldlM (fun t x => enterReplica x.1 t x.2) ([], []) := by
    rw [placementsOn, foldlM_flatMap_eq]
    simp only [List.foldlM_map]
    rfl
  have hleaders := Table.foldlM_enterNew (fun x : Nat × Replica α => x.2.partition)
    Refusal.repeatedLeader (fun x => x) ((placementsOn brokers).filter (·.2.leader)) [] []
    (by simp)
  rw [hflat, foldlM_enterReplica, hleaders, ← ledPartitions_eq]
  cases firstRepeat? [] (ledPartitions brokers) <;> rfl

/-- The tables are refused for the first id that comes again, or else for the first partition that
is led again; otherwise each pass enters everything. -/
theorem build_eq (brokers : List (Broker α)) :
    build brokers =
      match firstRepeat? [] (brokers.map (·.id)) with
      | some id => .error (.repeatedBroker id)
      | none =>
        match firstRepeat? [] (ledPartitions (inOrder brokers)) with
        | some p => .error (.repeatedLeader p)
        | none => .ok {
            byId := brokers.map fun b => (b.id, b)
            members := (inOrder brokers).foldl enterMember []
            leaders := ((placementsOn (inOrder brokers)).filter (·.2.leader)).map
              fun x => (x.2.partition, x)
            counts := (placementsOn (inOrder brokers)).foldl countReplica [] } := by
  simp only [build, foldlM_enterBroker, foldlM_enterReplicas]
  cases firstRepeat? [] (brokers.map (·.id)) with
  | some id => rfl
  | none => cases firstRepeat? [] (ledPartitions (inOrder brokers)) <;> rfl

end Tables

end Cluster

end ClusterBalance
