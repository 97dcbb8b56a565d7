import Mathlib
import ClusterBalance.Fault
import ClusterBalance.Proofs.Claim.Partition
import ClusterBalance.Proofs.Cluster.Tables
import ClusterBalance.Proofs.Groups

/-! What a cluster answers about the brokers that it was made of. Main statement: the brokers stand
in the order of their ids and are found by them, the alive and the dead ones make up the whole, the
hosts part the brokers and stand in the order of their lowest ids, a partition has the leader that
is placed somewhere, and the tables give the same answers. -/

namespace ClusterBalance

namespace Cluster

variable {α : Type}

/-- How the answers of a cluster fit together, and with the brokers that it was made of. -/
structure Answers [Limits] (c : Cluster α) (brokers : List (Broker α)) : Prop where
  perm : c.brokers.Perm brokers
  ordered : c.brokers.Pairwise fun a b => a.id < b.id
  found : ∀ b ∈ brokers, c.brokerFor (.int b.id) = .ok b
  unknown : ∀ n : Int, (∀ b ∈ brokers, (b.id : Int) ≠ n) → n.natAbs < Document.digitLimit →
    ∃ e, c.brokerFor (.int n) = .error e ∧ e = .unknownBroker (toString n) ∧
      e.fault.errorClass = .missingKey
  unwritten : ∀ n : Int, (∀ b ∈ brokers, (b.id : Int) ≠ n) → Document.digitLimit ≤ n.natAbs →
    ∃ e, c.brokerFor (.int n) = .error e ∧ e = .noLiteral .tooManyDigits ∧
      e.fault.errorClass = .invalidValue
  alive : ∀ b, b ∈ c.aliveBrokers ↔ b ∈ brokers ∧ b.alive = true
  dead : ∀ b, b ∈ c.deadBrokers ↔ b ∈ brokers ∧ b.alive = false
  split : (c.aliveBrokers ++ c.deadBrokers).Perm brokers
  aliveOrdered : c.aliveBrokers.Pairwise fun a b => a.id < b.id
  deadOrdered : c.deadBrokers.Pairwise fun a b => a.id < b.id
  parted : (c.hosts.flatMap (·.brokers)).Perm brokers
  names : (c.hosts.map (·.name)).Nodup
  members : ∀ h ∈ c.hosts, h.brokers ≠ [] ∧ (∀ b ∈ h.brokers, b.host = h.name) ∧
    h.brokers.Pairwise fun a b => a.id < b.id
  hostsOrdered : c.hosts.Pairwise fun h h' =>
    ∃ b ∈ h.brokers, (∀ a ∈ h.brokers, b.id ≤ a.id) ∧ ∀ a ∈ h'.brokers, b.id < a.id
  hostOf : ∀ b ∈ brokers, ∀ h, h = c.hostOf b ↔ h ∈ c.hosts ∧ b ∈ h.brokers
  leader : ∀ p id r, c.leader? p = some (id, r) ↔
    (id, r) ∈ c.placements ∧ r.leader = true ∧ r.partition = p
  leaderless : ∀ p, c.leader? p = none ↔
    ∀ x ∈ c.placements, ¬(x.2.leader = true ∧ x.2.partition = p)
  oneLeader : ∀ p, c.placements.countP (fun x => x.2.leader && x.2.partition = p) ≤ 1
  leaderFor : ∀ p : TopicPartition,
    c.leaderFor (.string p.topic) (.int p.partition) = .ok (c.leader? p)

/-- How the tables of some brokers fit to the cluster that is made of them. -/
structure Tables.Serve (t : Tables α) (c : Cluster α) : Prop where
  broker : ∀ id : Nat, t.byId.lookup id = c.broker? id
  hosts : t.hosts = c.hosts
  hostOf : ∀ b ∈ c.brokers, t.members.lookup b.host = some (c.hostOf b).brokers
  leader : ∀ p, t.leaders.lookup p = c.leader? p
  topics : (t.counts.map (·.1)).mergeSort (fun s t => !(t < s)) = c.topics
  numReplicasOf : ∀ topic, (t.counts.lookup topic).getD 0 = c.numReplicasOf topic
  numReplicas : totalCount (t.counts.map (·.2)) = c.numReplicas

section Made

variable {brokers : List (Broker α)} {ratio : Float} {windows : Int} {c : Cluster α}

theorem brokers_of_make (h : make brokers ratio windows = .ok c) : c.brokers = inOrder brokers := by
  obtain ⟨-, -, -, -, rfl⟩ := make_eq_ok_iff.mp h
  rfl

theorem perm_of_make (h : make brokers ratio windows = .ok c) : c.brokers.Perm brokers := by
  rw [brokers_of_make h]
  exact inOrder_perm brokers

theorem pairwise_of_make (h : make brokers ratio windows = .ok c) :
    c.brokers.Pairwise fun a b => a.id < b.id := by
  rw [brokers_of_make h]
  obtain ⟨-, -, hids, -, -⟩ := make_eq_ok_iff.mp h
  exact inOrder_pairwise hids

theorem nodup_ids_of_make (h : make brokers ratio windows = .ok c) :
    (c.brokers.map (·.id)).Nodup :=
  List.pairwise_map.mpr ((pairwise_of_make h).imp fun hlt => Nat.ne_of_lt hlt)

theorem nodup_leaders_of_make (h : make brokers ratio windows = .ok c) :
    (c.leaders.map (·.2.partition)).Nodup := by
  obtain ⟨-, -, -, hled, -⟩ := make_eq_ok_iff.mp h
  have hperm : (ledPartitions c.brokers).Perm (ledPartitions brokers) :=
    (perm_of_make h).flatMap_right _
  have hleaders : c.leaders.map (·.2.partition) = ledPartitions c.brokers :=
    (ledPartitions_eq c.brokers).symm
  rw [hleaders]
  exact hperm.nodup_iff.mpr hled

theorem broker?_eq_some_iff (h : make brokers ratio windows = .ok c) {n : Int} {b : Broker α} :
    c.broker? n = some b ↔ b ∈ c.brokers ∧ (b.id : Int) = n := by
  have hids : (c.brokers.map fun b => (b.id : Int)).Nodup := by
    have := (nodup_ids_of_make h).map (f := fun id : Nat => (id : Int)) fun _ _ => Int.ofNat.inj
    rwa [List.map_map] at this
  exact find?_eq_some_iff_of_nodup _ hids

theorem leader?_eq_some_iff (h : make brokers ratio windows = .ok c) {p : TopicPartition}
    {x : Nat × Replica α} :
    c.leader? p = some x ↔ x ∈ c.placements ∧ x.2.leader = true ∧ x.2.partition = p := by
  have hfind := find?_eq_some_iff_of_nodup (fun x : Nat × Replica α => x.2.partition)
    (nodup_leaders_of_make h) (k := p) (x := x)
  rw [leaders, List.mem_filter, and_assoc] at hfind
  exact hfind

theorem brokerFor_of_mem [Limits] (h : make brokers ratio windows = .ok c) {b : Broker α}
    (hb : b ∈ c.brokers) : c.brokerFor (.int b.id) = .ok b := by
  rw [brokerFor_int, (broker?_eq_some_iff h).mpr ⟨hb, rfl⟩]

theorem brokerFor_of_unknown [Limits] (h : make brokers ratio windows = .ok c) {n : Int}
    (hn : ∀ b ∈ c.brokers, (b.id : Int) ≠ n) :
    c.brokerFor (.int n) = .error (unknownBroker (.int n)) := by
  have hnone : c.broker? n = none := by
    apply Option.eq_none_iff_forall_ne_some.mpr
    intro b hb
    obtain ⟨hmem, hid⟩ := (broker?_eq_some_iff h).mp hb
    exact hn b hmem hid
  rw [brokerFor_int, hnone]

/-- What is said about an id that no broker has, if the id has a text. -/
theorem unknownBroker_of_lt [Limits] {n : Int} (h : n.natAbs < Document.digitLimit) :
    unknownBroker (.int n) = .unknownBroker (toString n) := by
  rw [unknownBroker, Document.wording?_int, Document.wholeText?_of_lt h]
  rfl

/-- An id without a text cannot be said to be unknown. -/
theorem unknownBroker_of_le [Limits] {n : Int} (h : Document.digitLimit ≤ n.natAbs) :
    unknownBroker (.int n) = .noLiteral .tooManyDigits := by
  rw [unknownBroker, Document.wording?_int, Document.wholeText?_of_le h]
  rfl

end Made

section Leaders

theorem make_claim (p : TopicPartition) :
    PartitionClaim.make (.string p.topic) (.int p.partition) =
      .ok ⟨.string p.topic, .int p.partition⟩ :=
  PartitionClaim.make_eq_ok_iff.mpr
    ⟨by simp [p.topic_ne_empty], Int.natCast_nonneg p.partition, rfl⟩

theorem isTo_claim (p q : TopicPartition) :
    PartitionClaim.isTo ⟨.string p.topic, .int p.partition⟩ q = decide (q = p) := by
  have htopic : (Document.string p.topic).equals (.string q.topic) =
      decide (p.topic = q.topic) := rfl
  rw [PartitionClaim.isTo, PartitionClaim.same, htopic, Document.equals_int, Bool.eq_iff_iff]
  simp only [Bool.and_eq_true, decide_eq_true_eq]
  constructor
  · rintro ⟨hname, hnumber⟩
    cases p
    cases q
    cases hname
    cases Int.ofNat.inj hnumber
    rfl
  · rintro rfl
    exact ⟨rfl, rfl⟩

/-- A question that names a partition by its topic and its number is one about that partition. -/
theorem leaderFor_eq (c : Cluster α) (p : TopicPartition) :
    c.leaderFor (.string p.topic) (.int p.partition) = .ok (c.leader? p) := by
  rw [leaderFor, make_claim]
  simp only [isTo_claim]
  rfl

end Leaders

section Hosts

variable (c : Cluster α)

theorem hosts_eq : c.hosts = (c.brokers.map (·.host)).eraseDups.map c.hostNamed := rfl

theorem mem_hosts_iff {h : Host α} :
    h ∈ c.hosts ↔ ∃ b ∈ c.brokers, h = c.hostOf b := by
  simp only [hosts_eq, List.mem_map, List.mem_eraseDups, hostOf]
  constructor
  · rintro ⟨_, ⟨b, hb, rfl⟩, rfl⟩
    exact ⟨b, hb, rfl⟩
  · rintro ⟨b, hb, rfl⟩
    exact ⟨b.host, ⟨b, hb, rfl⟩, rfl⟩

theorem mem_brokers_hostOf_iff {a b : Broker α} :
    a ∈ (c.hostOf b).brokers ↔ a ∈ c.brokers ∧ a.host = b.host := by
  simp [hostOf, hostNamed]

theorem hosts_parted : (c.hosts.flatMap (·.brokers)).Perm c.brokers := by
  rw [hosts_eq, List.flatMap_map]
  exact groups_perm (fun b : Broker α => b.host) c.brokers

theorem nodup_names : (c.hosts.map (·.name)).Nodup := by
  have hnames : c.hosts.map (·.name) = (c.brokers.map (·.host)).eraseDups := by
    rw [hosts_eq, List.map_map]
    exact List.map_id _
  rw [hnames]
  exact nodup_eraseDups_map _ _

theorem eq_hostOf_iff {b : Broker α} (hb : b ∈ c.brokers) {h : Host α} :
    h = c.hostOf b ↔ h ∈ c.hosts ∧ b ∈ h.brokers := by
  constructor
  · rintro rfl
    exact ⟨c.mem_hosts_iff.mpr ⟨b, hb, rfl⟩, c.mem_brokers_hostOf_iff.mpr ⟨hb, rfl⟩⟩
  · rintro ⟨hmem, hin⟩
    obtain ⟨a, -, rfl⟩ := c.mem_hosts_iff.mp hmem
    obtain ⟨-, hhost⟩ := c.mem_brokers_hostOf_iff.mp hin
    rw [hostOf, hostOf, hhost]

theorem hosts_ordered (hids : c.brokers.Pairwise fun a b => a.id < b.id) :
    c.hosts.Pairwise fun h h' =>
      ∃ b ∈ h.brokers, (∀ a ∈ h.brokers, b.id ≤ a.id) ∧ ∀ a ∈ h'.brokers, b.id < a.id := by
  rw [hosts_eq, List.pairwise_map]
  apply (groups_pairwise (fun b : Broker α => b.host) c.brokers hids).imp
  rintro name name' ⟨b, hb, rfl, hfirst, hlater⟩
  refine ⟨b, c.mem_brokers_hostOf_iff.mpr ⟨hb, rfl⟩, ?_, ?_⟩
  · intro a ha
    obtain ⟨hmem, hhost⟩ := c.mem_brokers_hostOf_iff.mp ha
    rcases hfirst a hmem hhost with rfl | hlt
    · exact Nat.le_refl _
    · exact Nat.le_of_lt hlt
  · intro a ha
    obtain ⟨hmem, hhost⟩ := List.mem_filter.mp ha
    exact hlater a hmem (of_decide_eq_true hhost)

end Hosts

theorem totalCount_eq_sum (counts : List Nat) : totalCount counts = counts.sum :=
  List.sum_eq_foldl.symm

theorem numReplicasOf_eq (c : Cluster α) (topic : LooseText) :
    c.numReplicasOf topic = (c.placements.filter (·.2.topic = topic)).length := by
  rw [numReplicasOf, totalCount_eq_sum, ← List.countP_eq_length_filter, placements,
    List.countP_flatMap]
  simp only [Function.comp_def, List.countP_map, Broker.numReplicasOf]

theorem numReplicas_eq (c : Cluster α) : c.numReplicas = c.placements.length := by
  rw [numReplicas, totalCount_eq_sum, placements, List.length_flatMap]
  simp only [List.length_map, Broker.numReplicas]

namespace Tables

variable {brokers : List (Broker α)} {ratio : Float} {windows : Int} {c : Cluster α}

theorem foldl_append_members (xs : List (Broker α)) (v : Option (List (Broker α))) (h : xs ≠ []) :
    xs.foldl (fun v b => some (v.getD [] ++ [b])) v = some (v.getD [] ++ xs) := by
  induction xs generalizing v with
  | nil => exact absurd rfl h
  | cons b bs ih =>
    by_cases hbs : bs = []
    · rw [hbs]
      rfl
    · rw [List.foldl_cons, ih _ hbs]
      simp

theorem foldl_count {β : Type} (xs : List β) (v : Option Nat) :
    (xs.foldl (fun v _ => some (v.getD 0 + 1)) v).getD 0 = v.getD 0 + xs.length := by
  induction xs generalizing v with
  | nil => rfl
  | cons x xs ih =>
    rw [List.foldl_cons, ih, List.length_cons]
    simp only [Option.getD_some]
    omega

theorem keys_members (bs : List (Broker α)) :
    (bs.foldl enterMember []).map (·.1) = (bs.map (·.host)).eraseDups := by
  have hkeys := Table.keys_foldl_enter (fun b : Broker α => b.host)
    (fun b members => members.getD [] ++ [b]) bs []
  apply hkeys.trans
  simp

theorem lookup_members {bs : List (Broker α)} {b : Broker α} (hb : b ∈ bs) :
    (bs.foldl enterMember []).lookup b.host = some (bs.filter (·.host = b.host)) := by
  have hlook := Table.lookup_foldl_enter (fun b : Broker α => b.host)
    (fun b members => members.getD [] ++ [b]) bs [] b.host
  apply hlook.trans
  rw [foldl_append_members]
  · rfl
  · exact List.ne_nil_of_mem (List.mem_filter.mpr ⟨hb, decide_eq_true rfl⟩)

theorem members_eq (bs : List (Broker α)) :
    bs.foldl enterMember [] =
      (bs.map (·.host)).eraseDups.map fun name => (name, bs.filter (·.host = name)) := by
  have hkeys := keys_members bs
  rw [← hkeys]
  apply Table.eq_map_lookup
  · rw [hkeys]
    exact nodup_eraseDups_map _ _
  · intro name hname
    rw [hkeys, List.mem_eraseDups, List.mem_map] at hname
    obtain ⟨b, hb, rfl⟩ := hname
    exact lookup_members hb

theorem keys_counts (xs : List (Nat × Replica α)) :
    (xs.foldl countReplica []).map (·.1) = (xs.map (·.2.topic)).eraseDups := by
  have hkeys := Table.keys_foldl_enter (fun x : Nat × Replica α => x.2.topic)
    (fun _ n => n.getD 0 + 1) xs []
  apply hkeys.trans
  simp

theorem lookup_counts (xs : List (Nat × Replica α)) (topic : LooseText) :
    ((xs.foldl countReplica []).lookup topic).getD 0 =
      (xs.filter (·.2.topic = topic)).length := by
  have hlook : (xs.foldl countReplica []).lookup topic =
      (xs.filter (·.2.topic = topic)).foldl (fun v _ => some (v.getD 0 + 1)) none :=
    Table.lookup_foldl_enter (fun x : Nat × Replica α => x.2.topic)
      (fun _ n => n.getD 0 + 1) xs [] topic
  rw [hlook, foldl_count]
  simp

theorem sum_enter (t : Table LooseText Nat) (topic : LooseText) :
    ((t.enter topic fun n => n.getD 0 + 1).map (·.2)).sum = (t.map (·.2)).sum + 1 := by
  induction t with
  | nil => rfl
  | cons entry rest ih =>
    obtain ⟨k, n⟩ := entry
    by_cases hk : k = topic
    · rw [Table.enter, if_pos hk, List.map_cons, List.map_cons, List.sum_cons, List.sum_cons]
      simp only [Option.getD_some]
      omega
    · rw [Table.enter, if_neg hk, List.map_cons, List.map_cons, List.sum_cons, List.sum_cons, ih]
      omega

theorem sum_counts (xs : List (Nat × Replica α)) (t : Table LooseText Nat) :
    ((xs.foldl countReplica t).map (·.2)).sum = (t.map (·.2)).sum + xs.length := by
  induction xs generalizing t with
  | nil => rfl
  | cons x xs ih =>
    rw [List.foldl_cons, ih, countReplica, sum_enter, List.length_cons]
    omega

theorem build_of_make (h : make brokers ratio windows = .ok c) :
    build brokers = .ok {
      byId := brokers.map fun b => (b.id, b)
      members := c.brokers.foldl enterMember []
      leaders := c.leaders.map fun x => (x.2.partition, x)
      counts := c.placements.foldl countReplica [] } := by
  have hids := firstRepeat?_eq_none_iff [] (brokers.map (·.id))
  have hled := firstRepeat?_eq_none_iff [] (ledPartitions (inOrder brokers))
  rw [(ledPartitions_inOrder_perm brokers).nodup_iff] at hled
  obtain ⟨-, -, hnodup, hnodup', rfl⟩ := make_eq_ok_iff.mp h
  rw [build_eq, hids.mpr ⟨hnodup, by simp⟩, hled.mpr ⟨hnodup', by simp⟩]
  rfl

/-- The tables of the brokers of a cluster serve it. -/
theorem serve_of_make (h : make brokers ratio windows = .ok c) :
    ∃ t, build brokers = .ok t ∧ t.Serve c := by
  refine ⟨_, build_of_make h, ?_, ?_, ?_, ?_, ?_, ?_, ?_⟩
  · -- the table holds the brokers as they came, the search runs through them in order
    intro id
    have hids : (brokers.map (·.id)).Nodup := (make_eq_ok_iff.mp h).2.2.1
    rw [Table.lookup_map_entries (fun b : Broker α => b.id) (fun b => b), Option.map_id']
    apply Option.ext
    intro b
    rw [find?_eq_some_iff_of_nodup _ hids, broker?_eq_some_iff h, (perm_of_make h).mem_iff,
      Int.ofNat_inj]
  · rw [hosts, members_eq, List.map_map]
    rfl
  · intro b hb
    exact lookup_members hb
  · intro p
    rw [Table.lookup_map_entries (fun x : Nat × Replica α => x.2.partition) (fun x => x),
      Option.map_id']
    rfl
  · -- topics are entered where they come first, and then sorted
    rw [keys_counts, topics]
    congr 2
    simp only [placements, replicas, List.map_flatMap, List.map_map]
    rfl
  · intro topic
    rw [lookup_counts, numReplicasOf_eq]
  · rw [totalCount_eq_sum, sum_counts, numReplicas_eq]
    exact Nat.zero_add _

end Tables

/-- Whatever brokers a cluster is made of, and in whatever order they are given, its answers fit
together and with these brokers, and so do the tables that are built from them. -/
theorem make_answers [Limits] {brokers : List (Broker α)} {ratio : Float} {windows : Int}
    {c : Cluster α} (h : make brokers ratio windows = .ok c) :
    c.Answers brokers ∧ ∃ t, Tables.build brokers = .ok t ∧ t.Serve c := by
  have hperm := perm_of_make h
  have hids := pairwise_of_make h
  refine ⟨{
    perm := hperm
    ordered := hids
    found := fun b hb => brokerFor_of_mem h (hperm.mem_iff.mpr hb)
    unknown := fun n hn hlt => ⟨_, brokerFor_of_unknown h fun b hb => hn b (hperm.mem_iff.mp hb),
      unknownBroker_of_lt hlt, by rw [unknownBroker_of_lt hlt]; rfl⟩
    unwritten := fun n hn hle => ⟨_, brokerFor_of_unknown h fun b hb => hn b (hperm.mem_iff.mp hb),
      unknownBroker_of_le hle, by rw [unknownBroker_of_le hle]; rfl⟩
    alive := fun b => by rw [aliveBrokers, List.mem_filter, hperm.mem_iff]
    dead := fun b => by rw [deadBrokers, List.mem_filter, hperm.mem_iff, Bool.not_eq_true']
    split := (List.filter_append_perm _ _).trans hperm
    aliveOrdered := hids.filter _
    deadOrdered := hids.filter _
    parted := c.hosts_parted.trans hperm
    names := c.nodup_names
    members := ?_
    hostsOrdered := c.hosts_ordered hids
    hostOf := fun b hb host => c.eq_hostOf_iff (hperm.mem_iff.mpr hb)
    leader := fun p id r => leader?_eq_some_iff h
    leaderless := ?_
    oneLeader := ?_
    leaderFor := c.leaderFor_eq }, Tables.serve_of_make h⟩
  · intro host hhost
    obtain ⟨b, hb, rfl⟩ := c.mem_hosts_iff.mp hhost
    refine ⟨List.ne_nil_of_mem (c.mem_brokers_hostOf_iff.mpr ⟨hb, rfl⟩), ?_, hids.filter _⟩
    intro a ha
    exact (c.mem_brokers_hostOf_iff.mp ha).2
  · intro p
    rw [Option.eq_none_iff_forall_ne_some]
    constructor
    · intro hnone x hx hled
      exact hnone x ((leader?_eq_some_iff h).mpr ⟨hx, hled⟩)
    · intro hnone x hx
      obtain ⟨hmem, hled⟩ := (leader?_eq_some_iff h).mp hx
      exact hnone x hmem hled
  · intro p
    have hcount := List.nodup_iff_count_le_one.mp (nodup_leaders_of_make h) p
    rw [List.count, List.countP_map, leaders, List.countP_filter] at hcount
    apply Nat.le_trans (Nat.le_of_eq ?_) hcount
    apply List.countP_congr
    intro x _
    simp [and_comm]

theorem t_ne_empty : LooseText.sound "t" ≠ .sound "" := by decide

/-- Three brokers out of order. Two of them share a host, one of these is dead, and the partition
that both hold is led by the dead one. -/
def scattered : List (Broker Float) :=
  [ { id := 7, capacity := PerResource.replicate 1.0, host := "a", rack := "", alive := true
      replicas := [⟨⟨"t", 0, t_ne_empty⟩, false, PerResource.replicate 0.5, false⟩] },
    { id := 2, capacity := PerResource.replicate 1.0, host := "host-2", rack := "", alive := true
      replicas := [⟨⟨"t", 1, t_ne_empty⟩, false, PerResource.replicate 0.5, true⟩] },
    { id := 5, capacity := PerResource.replicate 1.0, host := "a", rack := "r", alive := false
      replicas := [⟨⟨"t", 0, t_ne_empty⟩, true, PerResource.replicate 0.5, false⟩] } ]

theorem make_scattered : make scattered 1.0 1 = .ok ⟨inOrder scattered, 1.0, 1⟩ := by
  apply make_eq_ok_iff.mpr
  exact ⟨by decide +kernel, by decide, by decide, by decide, rfl⟩

/-- The answers of the cluster of scattered brokers. -/
theorem make_answers_scattered :
    let _ : Limits := Limits.measured
    make scattered 1.0 1 = .ok ⟨inOrder scattered, 1.0, 1⟩ ∧
      (⟨inOrder scattered, 1.0, 1⟩ : Cluster Float).Answers scattered ∧
      ∃ t, Tables.build scattered = .ok t ∧
        t.Serve (⟨inOrder scattered, 1.0, 1⟩ : Cluster Float) := by
  intro _
  exact ⟨make_scattered, make_answers make_scattered⟩

/-- No broker of the scattered ones has an id of 4301 digits, and that is not said of it. -/
theorem make_answers_unwritten :
    let _ : Limits := Limits.measured
    let n : Int := (Document.digitLimit : Nat)
    make scattered 1.0 1 = .ok ⟨inOrder scattered, 1.0, 1⟩ ∧
      (∀ b ∈ scattered, (b.id : Int) ≠ n) ∧
      ∃ e, (⟨inOrder scattered, 1.0, 1⟩ : Cluster Float).brokerFor (.int n) = .error e ∧
        e.fault.errorClass ≠ .missingKey := by
  intro _ n
  have hids : ∀ b ∈ scattered, (b.id : Int) ≠ n := by
    have hsmall : ∀ b ∈ scattered, b.id < Document.digitLimit := by decide +kernel
    intro b hb hid
    exact absurd (hsmall b hb) (Nat.not_lt.mpr (Int.ofNat.inj hid).ge)
  have hother : ∀ b ∈ inOrder scattered, (b.id : Int) ≠ n := fun b hb =>
    hids b ((inOrder_perm scattered).mem_iff.mp hb)
  refine ⟨make_scattered, hids, _, brokerFor_of_unknown make_scattered hother, ?_⟩
  rw [unknownBroker_of_le (Int.natAbs_natCast Document.digitLimit).ge]
  decide

end Cluster

end ClusterBalance
