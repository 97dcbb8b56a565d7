import ClusterBalance.Proofs.Cluster.Answers
import ClusterBalance.Proofs.Report.Measured
import ClusterBalance.Proofs.Snapshot.File
import ClusterBalance.Proofs.Snapshot.RoundTrip

/-! Brokers that name no host. Each gets a host that is named after its id, and the names that are
made up so do not meet; but nothing keeps another broker from naming such a host. Main statement:
a broker that names no host has one to itself exactly if no broker of the snapshot names the host
that it gets. -/

namespace ClusterBalance

open Document

/-- The cluster of one broker. -/
def Broker.lone {α : Type} (b : Broker α) : Cluster α := ⟨[b], 1.0, 1⟩

/-- Hosts that are named after different ids differ. -/
theorem defaultHost_injective :
    Function.Injective fun id : Nat => Broker.defaultHost (toString id) := fun _ _ h =>
  Nat.repr_injective ((String.append_right_inj "host-").mp (LooseText.sound.inj h))

namespace Cluster

variable {α : Type} {c : Cluster α} {b : Broker α}

theorem brokers_hostOf_eq_singleton_iff (hnodup : c.brokers.Nodup) (hb : b ∈ c.brokers) :
    (c.hostOf b).brokers = [b] ↔ ∀ a ∈ (c.hostOf b).brokers, a = b := by
  constructor
  · intro h a ha
    rw [h] at ha
    exact List.mem_singleton.mp ha
  · intro h
    have hself : b ∈ (c.hostOf b).brokers := c.mem_brokers_hostOf_iff.mpr ⟨hb, rfl⟩
    apply List.perm_singleton.mp
    apply (List.perm_ext_iff_of_nodup (hnodup.filter _) (List.nodup_singleton b)).mpr
    intro a
    rw [List.mem_singleton]
    exact ⟨h a, fun heq => heq ▸ hself⟩

variable [Scalar α]

/-- Of a broker without neighbours everything is measured as if there were no other broker. -/
theorem measured_eq_lone (h : (c.hostOf b).brokers = [b]) (r : Resource) :
    c.measured r b = b.lone.measured r b := by
  have hlone : (b.lone.hostOf b).brokers = [b] := by
    simp [Broker.lone, hostOf, hostNamed]
  have hhost : c.hostOf b = b.lone.hostOf b := by
    rw [hostOf, hostNamed] at h hlone ⊢
    rw [hostOf, hostNamed]
    exact congrArg (Host.mk b.host) (h.trans hlone.symm)
  rw [measured, measured, hhost]

end Cluster

namespace Snapshot

variable {fields : List (LooseText × Document)} {entry : Document} {b : Broker Float}
  {c : Cluster Float}

/-- The text that a broker entry gives as its host, which is empty if it gives none. -/
def hostText (entry : Document) : LooseText :=
  ((fieldOf? "host" entry).getD (.string "")).wording

theorem host_eq [Limits] (h : Broker.ofDocument entry = .ok b) :
    b.host = hostFor b.id (hostText entry) := by
  obtain ⟨fields, rfl, hread⟩ := broker_eq_ok_iff.mp h
  obtain ⟨host, hhost, -, heq⟩ := hread.host
  obtain rfl := wordingOr_eq_wording hhost
  exact heq

theorem mem_brokers_iff [Limits] (h : Cluster.ofDocument (.object fields) = .ok c) :
    b ∈ c.brokers ↔ ∃ entry ∈ brokerEntries fields, Broker.ofDocument entry = .ok b := by
  obtain ⟨windows, ratio, brokers, -, -, hbrokers, hmake⟩ :=
    (ofDocument_eq_ok_iff (find?_brokers_of_ok h)).mp h
  rw [(Cluster.perm_of_make hmake).mem_iff]
  exact mem_iff_of_mapM_eq_ok hbrokers

theorem exists_broker_of_entry [Limits] (h : Cluster.ofDocument (.object fields) = .ok c)
    (hentry : entry ∈ brokerEntries fields) :
    ∃ b ∈ c.brokers, Broker.ofDocument entry = .ok b := by
  obtain ⟨hsnapshot, hwritable⟩ := exists_cluster_iff.mp ⟨c, h⟩
  obtain ⟨b, hmade⟩ :=
    exists_broker_iff.mpr ⟨hsnapshot.each entry hentry, hwritable entry hentry⟩
  exact ⟨b, (mem_brokers_iff h).mpr ⟨entry, hentry, hmade⟩, hmade⟩

/-- Different entries make different brokers. -/
theorem eq_of_broker_eq [Limits] (h : Cluster.ofDocument (.object fields) = .ok c)
    {entry' : Document} (hentry : entry ∈ brokerEntries fields)
    (hentry' : entry' ∈ brokerEntries fields) (hmade : Broker.ofDocument entry = .ok b)
    (hmade' : Broker.ofDocument entry' = .ok b) :
    entry = entry' := by
  have hids := (exists_cluster_iff.mp ⟨c, h⟩).1.ids
  apply List.inj_on_of_nodup_map hids hentry hentry'
  rw [← (broker_eq hmade).1, ← (broker_eq hmade').1]

theorem nodup_ids [Limits] (h : Cluster.ofDocument (.object fields) = .ok c) :
    (c.brokers.map (·.id)).Nodup := by
  obtain ⟨windows, ratio, brokers, -, -, -, hmake⟩ :=
    (ofDocument_eq_ok_iff (find?_brokers_of_ok h)).mp h
  exact Cluster.nodup_ids_of_make hmake

/-- How a broker is placed whose entry gives no host. -/
structure OnDefaultHost [Limits] (fields : List (LooseText × Document)) (c : Cluster Float)
    (b : Broker Float) : Prop where
  host : b.host = Broker.defaultHost (toString b.id)
  neighbours : ∀ a, a ∈ (c.hostOf b).brokers ↔ a = b ∨
    ∃ entry ∈ brokerEntries fields, hostText entry = b.host ∧ Broker.ofDocument entry = .ok a
  alone_iff : (c.hostOf b).brokers = [b] ↔ ∀ entry ∈ brokerEntries fields, hostText entry ≠ b.host
  measured : (c.hostOf b).brokers = [b] → ∀ r, c.measured r b = b.lone.measured r b
  balanced : (c.hostOf b).brokers = [b] → ∀ k r average, c.usedFraction r = .ok average →
    c.countsAsBalanced k r b =
      acceptsShare (Band.around average (k.percentage.get r)).contains (b.lone.measured r b).1
        (b.lone.measured r b).2

/-- A broker whose entry gives no host shares its host with exactly the brokers whose entries give
the text that the host is named by. -/
theorem neighbours_iff [Limits] (h : Cluster.ofDocument (.object fields) = .ok c)
    (hb : b ∈ c.brokers) (hhost : b.host = Broker.defaultHost (toString b.id)) (a : Broker Float) :
    a ∈ (c.hostOf b).brokers ↔ a = b ∨
      ∃ entry ∈ brokerEntries fields, hostText entry = b.host ∧
        Broker.ofDocument entry = .ok a := by
  rw [c.mem_brokers_hostOf_iff, mem_brokers_iff h]
  constructor
  · rintro ⟨⟨entry, hentry, ha⟩, hsame⟩
    have hmem : a ∈ c.brokers := (mem_brokers_iff h).mpr ⟨entry, hentry, ha⟩
    rw [host_eq ha, hostFor] at hsame
    split at hsame
    · -- a host that is named after an id is named after that of its broker
      rw [hhost] at hsame
      exact .inl (List.inj_on_of_nodup_map (nodup_ids h) hmem hb (defaultHost_injective hsame))
    · exact .inr ⟨entry, hentry, hsame, ha⟩
  · rintro (rfl | ⟨entry, hentry, htext, ha⟩)
    · exact ⟨(mem_brokers_iff h).mp hb, rfl⟩
    · refine ⟨⟨entry, hentry, ha⟩, ?_⟩
      have hne : hostText entry ≠ "" := by
        rw [htext, hhost]
        exact defaultHost_ne_empty (toString b.id)
      rw [host_eq ha, hostFor, if_neg hne, htext]

/-- A broker whose entry gives no host is on the host that is named after its id. It has that host
to itself, and with it what is measured of it, exactly if no entry of the snapshot gives it. -/
theorem ofDocument_onDefaultHost [Limits] (h : Cluster.ofDocument (.object fields) = .ok c)
    (hentry : entry ∈ brokerEntries fields) (hnone : hostText entry = "") :
    ∃ b ∈ c.brokers, Broker.ofDocument entry = .ok b ∧ OnDefaultHost fields c b := by
  obtain ⟨b, hb, hmade⟩ := exists_broker_of_entry h hentry
  have hhost : b.host = Broker.defaultHost (toString b.id) := by
    rw [host_eq hmade, hostFor, if_pos hnone]
  refine ⟨b, hb, hmade, hhost, neighbours_iff h hb hhost, ?_, fun halone r =>
    Cluster.measured_eq_lone halone r, fun halone k r average haverage => ?_⟩
  · rw [Cluster.brokers_hostOf_eq_singleton_iff (nodup_ids h).of_map hb]
    constructor
    · intro halone entry' hentry' htext
      obtain ⟨a, -, hmade'⟩ := exists_broker_of_entry h hentry'
      obtain rfl := halone a ((neighbours_iff h hb hhost a).mpr (.inr ⟨_, hentry', htext, hmade'⟩))
      obtain rfl := eq_of_broker_eq h hentry hentry' hmade hmade'
      rw [← htext, hnone] at hhost
      exact defaultHost_ne_empty (toString a.id) hhost.symm
    · intro hunnamed a ha
      refine ((neighbours_iff h hb hhost a).mp ha).resolve_right ?_
      rintro ⟨entry', hentry', htext, -⟩
      exact hunnamed entry' hentry' htext
  · rw [Cluster.countsAsBalanced, haverage, Cluster.measured_eq_lone halone]

/-- The entry of a broker that gives no more than its id. -/
def anonymous (id : Int) : Document := .object [("id", .int id)]

/-- The entry of a broker that gives a host. -/
def named (id : Int) (host : String) : Document :=
  .object [("id", .int id), ("host", .string host)]

/-- The fields of a snapshot whose second broker gives the host that the first one gets. -/
def namesake : List (LooseText × Document) :=
  [("brokers", .list [anonymous 0, named 1 "host-0"])]

theorem brokerEntries_namesake :
    brokerEntries namesake = [anonymous 0, named 1 "host-0"] := rfl

theorem exists_cluster_namesake [Limits] : ∃ c, Cluster.ofDocument (.object namesake) = .ok c := by
  refine exists_cluster_iff.mpr ⟨⟨⟨_, rfl⟩, nofun, nofun, ?_, ?_, ?_⟩, ?_⟩
  · rw [brokerEntries_namesake, List.forall_mem_cons, List.forall_mem_singleton]
    exact ⟨⟨⟨_, rfl⟩, ⟨0, rfl, by decide⟩, nofun, nofun, nofun, nofun⟩,
      ⟨⟨_, rfl⟩, ⟨1, rfl, by decide⟩, nofun, nofun, nofun, nofun⟩⟩
  · change [some (Document.int 0), some (.int 1)].Nodup
    simp
  · exact List.nodup_nil
  · rw [brokerEntries_namesake, List.forall_mem_cons, List.forall_mem_singleton]
    refine ⟨⟨nofun, nofun, ?_⟩, ⟨?_, nofun, ?_⟩⟩
    · rintro _ ⟨⟩ -
      exact lt_digitLimit (by decide)
    · rintro _ ⟨⟩
      exact ⟨Nat.succ_le_succ (Nat.zero_le _), nofun⟩
    · rintro _ - h
      exact absurd h (by decide)

/-- A broker that gives no host shares the one it gets with a broker that gives it. -/
theorem ofDocument_onDefaultHost_namesake :
    let _ : Limits := Limits.measured
    ∃ c, Cluster.ofDocument (.object namesake) = .ok c ∧ hostText (anonymous 0) = "" ∧
      ∃ b ∈ c.brokers, OnDefaultHost namesake c b ∧ (c.hostOf b).brokers ≠ [b] := by
  intro _
  obtain ⟨c, hc⟩ := exists_cluster_namesake
  have hnone : hostText (anonymous 0) = "" := by decide
  obtain ⟨b, hb, hmade, hdefault⟩ := ofDocument_onDefaultHost hc List.mem_cons_self hnone
  have hid : b.id = 0 := by
    have hid : some (Document.int b.id) = some (.int 0) := (broker_eq hmade).1
    simpa using hid
  refine ⟨c, hc, hnone, b, hb, hdefault, fun halone => ?_⟩
  refine hdefault.alone_iff.mp halone (named 1 "host-0") (by simp [brokerEntries_namesake]) ?_
  rw [hdefault.host, hid]
  decide

end Snapshot

end ClusterBalance
