import ClusterBalance.Proofs.Snapshot.RoundTrip

/-! Clusters with whole numbers and doubles for amounts, written to snapshots and read back. Main
statement: the document of a cluster describes that cluster with its amounts as doubles, which
answers as the cluster does, unless the id of a broker that holds replicas is too long to be written
out. -/

namespace ClusterBalance

open Document Snapshot
open Decimal (Mixed)

/-- Amounts that a vector of a cluster can be given: none is below zero, and none is too large for a
double, as each is added to one when the cluster is made. -/
structure LoadVector.Given (v : LoadVector Mixed) : Prop where
  notNegative : ∀ r, (v.get r).isNegative = false
  inRange : ∀ r, ∃ x, (v.get r).toFloat? = some x

/-- Amounts of which those that are doubles are numbers. -/
def LoadVector.GivenNumbers (v : LoadVector Mixed) : Prop :=
  ∀ r x, v.get r = .double x → x.isNaN = false

/-- Amounts of which those that are whole numbers have doubles of their own. -/
def LoadVector.IsExact (v : LoadVector Mixed) : Prop :=
  ∀ r n, v.get r = .whole n → (Mixed.double (Decimal.nearestRatio n 1) == .whole n) = true

/-- A broker that is made of parts with amounts that it can be given. -/
def Broker.Made (b : Broker Mixed) : Prop :=
  ∃ id capacity replicas host rack alive,
    LoadVector.Given capacity ∧ (∀ placed ∈ replicas, LoadVector.Given placed.2.load) ∧
      make id capacity replicas host rack alive = .ok b

/-- Each capacity and each load of a broker has some property. -/
def Broker.Each {α : Type} (P : LoadVector α → Prop) (b : Broker α) : Prop :=
  P b.capacity ∧ ∀ r ∈ b.replicas, P r.load

namespace Cluster

/-- A cluster that is made of made brokers. -/
def Constructible (m : Cluster Mixed) : Prop :=
  ∃ brokers ratio windows, (∀ b ∈ brokers, b.Made) ∧ make brokers ratio windows = .ok m

/-- How a cluster that was read relates to the one that was written: it is that cluster with its
amounts as doubles, it equals it exactly if each whole number has a double of its own, and it
answers in its place, as do the tables that are built from what was read. -/
structure Restores (d : Cluster Float) (m : Cluster Mixed) : Prop where
  amounts : d = m.map Mixed.nearest
  doubles : ∀ c : Cluster Float, m = c.map Mixed.double → d = c
  equal : (d.map Mixed.double == m) = true ↔ ∀ b ∈ m.brokers, b.Each LoadVector.IsExact
  answers : d.AnswersFor m
  tables : ∃ t, Tables.build d.brokers = .ok t ∧ t.Serve d

end Cluster

theorem notNegative_nearest {a : Mixed} (h : a.isNegative = false) : ¬a.nearest < 0.0 := by
  cases a with
  | whole n =>
    lift n to Nat using Int.not_lt.mp (of_decide_eq_false h)
    exact Decimal.notNegative_nearestRatio n
  | double x => exact of_decide_eq_false h

theorem denotes_nearest {a : Mixed} {x : Float} (h : a.toFloat? = some x) :
    Denotes (Amount.document a) a.nearest := by
  cases a with
  | whole n =>
    refine .whole n _ ?_
    rw [Mixed.nearest, Decimal.nearestRatio_of_ofWhole? h]
    exact h
  | double x => exact .float x

theorem LoadVector.Given.readAs {v : LoadVector Mixed} (h : v.Given) :
    LoadVector.ReadAs Mixed.nearest v := by
  refine ⟨fun r => ?_, ?_⟩
  · obtain ⟨x, hx⟩ := h.inRange r
    exact denotes_nearest hx
  · rw [negative?, List.find?_eq_none]
    intro r _ hr
    rw [PerResource.get_map, decide_eq_true_eq] at hr
    exact notNegative_nearest (h.notNegative r) hr

/-- A broker that is made has a host, by default one that is named after it. -/
theorem Broker.Made.given {b : Broker Mixed} (h : b.Made) :
    b.Each LoadVector.Given ∧ b.host ≠ "" := by
  obtain ⟨id, capacity, replicas, host, rack, alive, hcapacity, hload, hmake⟩ := h
  unfold make at hmake
  split at hmake
  · cases hmake
  split at hmake
  · cases hmake
  obtain ⟨name, hname, hb⟩ := bind_eq_ok_iff.mp hmake
  obtain ⟨-, rfl⟩ := hostNamed_eq_ok_iff.mp hname
  cases hb
  refine ⟨⟨hcapacity, fun r hr => ?_⟩, hostFor_ne_empty id.toNat host⟩
  obtain ⟨placed, hplaced, rfl⟩ := List.mem_map.mp hr
  exact hload placed hplaced

theorem Broker.Made.readAs {b : Broker Mixed} (h : b.Made) : b.ReadAs Mixed.nearest :=
  ⟨h.given.1.1.readAs, fun r hr => (h.given.1.2 r hr).readAs, h.given.2⟩

theorem double_nearest_beq_iff {a : Mixed} (hnumber : ∀ x, a = .double x → x.isNaN = false) :
    (Mixed.double a.nearest == a) = true ↔
      ∀ n, a = .whole n → (Mixed.double (Decimal.nearestRatio n 1) == .whole n) = true := by
  cases a with
  | whole n => simp [Mixed.nearest]
  | double x =>
    have hle : x ≤ x := by
      rw [Decimal.le_iff_place (hnumber x rfl) (hnumber x rfl)]
    refine iff_of_true ?_ fun n hn => Mixed.noConfusion hn
    change (decide (x ≤ x) && decide (x ≤ x)) = true
    rw [decide_eq_true hle]
    rfl

namespace Cluster

variable {m : Cluster Mixed}

theorem Constructible.made (h : m.Constructible) : ∀ b ∈ m.brokers, b.Made := by
  obtain ⟨brokers, ratio, windows, hbrokers, hmake⟩ := h
  exact fun b hb => hbrokers b ((perm_of_make hmake).mem_iff.mp hb)

theorem Constructible.make_brokers (h : m.Constructible) :
    make m.brokers m.monitoredRatio m.windows = .ok m := by
  obtain ⟨brokers, ratio, windows, -, hmake⟩ := h
  exact Cluster.make_brokers hmake

theorem Constructible.ofDocument_eq [Limits] (h : m.Constructible) (hids : m.IdsReadable) :
    ofDocument m.toDocument = .ok (m.map Mixed.nearest) :=
  ofDocument_of_readAs (fun b hb => (h.made b hb).readAs) hids h.make_brokers

theorem map_nearest_beq_iff (hratio : 0.0 ≤ m.monitoredRatio)
    (hnumbers : ∀ b ∈ m.brokers, b.Each LoadVector.GivenNumbers) :
    ((m.map Mixed.nearest).map Mixed.double == m) = true ↔
      ∀ b ∈ m.brokers, b.Each LoadVector.IsExact := by
  have hvector {v : LoadVector Mixed} (hv : v.GivenNumbers) :
      (∀ r, (Mixed.double (v.get r).nearest == v.get r) = true) ↔ v.IsExact :=
    forall_congr' fun r => double_nearest_beq_iff (hv r)
  rw [map_map, map_beq_iff (Decimal.beq_self_of_isNaN (Decimal.isNaN_of_le hratio))]
  refine forall₂_congr fun b hb => ?_
  obtain ⟨hcapacity, hload⟩ := hnumbers b hb
  exact and_congr (hvector hcapacity) (forall₂_congr fun r hr => hvector (hload r hr))

/-- What is read of the document of a cluster is that cluster with its amounts as doubles, which
equals it as far as whole numbers have doubles of their own, and which answers in its place. Nothing
is read if a broker that holds replicas has an id that is too long. -/
theorem ofDocument_toDocument [Limits] (h : m.Constructible)
    (hnumbers : ∀ b ∈ m.brokers, b.Each LoadVector.GivenNumbers) :
    (m.IdsReadable → ∃ d, ofDocument m.toDocument = .ok d ∧ d.Restores m) ∧
      (¬m.IdsReadable → ∃ e, ofDocument m.toDocument = .error e ∧
        e = .noLiteral .tooManyDigits ∧ e.errorClass = .invalidValue) := by
  constructor
  · intro hids
    obtain ⟨hratio, -⟩ := make_eq_ok_iff.mp h.make_brokers
    refine ⟨m.map Mixed.nearest, h.ofDocument_eq hids, {
      amounts := rfl
      doubles := ?_
      equal := map_nearest_beq_iff hratio.1 hnumbers
      answers := answersFor_map_nearest m
      tables := Tables.serve_of_make (make_map Mixed.nearest h.make_brokers) }⟩
    rintro c rfl
    rw [map_map]
    exact c.map_id
  · intro hids
    exact ⟨_, ofDocument_of_unreadable (fun b hb => (h.made b hb).readAs) hids, rfl, rfl⟩

/-- Parts with amounts that they can be given make a broker, if a host that is named after its id
can be. -/
theorem made_of_parts {id : Nat} {capacity : LoadVector Mixed} {rs : List (Replica Mixed)}
    {rack : LooseText} {alive : Bool} (host : LooseText) (hcapacity : capacity.Given)
    (hload : ∀ r ∈ rs, LoadVector.Given r.load) (hid : host = "" → id < digitLimit) :
    Broker.Made ⟨id, capacity, rs, hostFor id host, rack, alive⟩ := by
  refine ⟨id, capacity, rs.map ((id : Int), ·), host, rack, alive, hcapacity, ?_, ?_⟩
  · intro placed hplaced
    obtain ⟨r, hr, rfl⟩ := List.mem_map.mp hplaced
    exact hload r hr
  · have hplaced : (rs.map ((id : Int), ·)).find? (fun (claimed, _) => claimed ≠ id) = none := by
      simp
    have hreplicas : (rs.map ((id : Int), ·)).map Prod.snd = rs := by simp [Function.comp_def]
    have hname := hostNamed_eq_ok_iff.mpr ⟨hid, rfl⟩
    rw [Broker.make, if_neg (by omega), hplaced, hreplicas, Int.toNat_natCast]
    exact bind_eq_ok_iff.mpr ⟨_, hname, rfl⟩

theorem given_replicate {a : Mixed} {x : Float} (hnonneg : a.isNegative = false)
    (hx : a.toFloat? = some x) : LoadVector.Given (PerResource.replicate a) := by
  refine ⟨fun r => ?_, fun r => ?_⟩ <;> rw [PerResource.replicate, PerResource.get_ofFn]
  · exact hnonneg
  · exact ⟨x, hx⟩

theorem givenNumbers_replicate {a : Mixed} (h : ∀ x, a = .double x → x.isNaN = false) :
    LoadVector.GivenNumbers (PerResource.replicate a) := by
  intro r
  rw [PerResource.replicate, PerResource.get_ofFn]
  exact h

/-- A replica that leads nothing, on a working disk. -/
def follower (partition : TopicPartition) (amount : Mixed) : Replica Mixed :=
  ⟨partition, false, PerResource.replicate amount, false⟩

/-- Three brokers out of order. The first holds a partition twice and no one leads it; it names no
host and gets one of its own. The others share a host, and one of them is dead. Amounts of either
kind are given. -/
def crowded : List (Broker Mixed) :=
  let u : TopicPartition := ⟨"u", 0, by decide⟩
  let t : TopicPartition := ⟨"t", 0, t_ne_empty⟩
  [ ⟨7, PerResource.replicate (.whole 100), [follower u (.whole 3), follower u (.whole 3)],
      hostFor 7 "", "", true⟩,
    ⟨2, PerResource.replicate (.double 1.0), [follower t (.double 0.5)], "a", "r", true⟩,
    ⟨5, PerResource.replicate (.double 1.0), [⟨t, true, PerResource.replicate (.double 0.5), true⟩],
      "a", "r", false⟩ ]

theorem each_crowded {P : LoadVector Mixed → Prop}
    (hhundred : P (PerResource.replicate (.whole 100)))
    (hthree : P (PerResource.replicate (.whole 3))) (hone : P (PerResource.replicate (.double 1.0)))
    (hhalf : P (PerResource.replicate (.double 0.5))) : ∀ b ∈ crowded, b.Each P := by
  intro b hb
  simp only [crowded, List.mem_cons, List.not_mem_nil, or_false] at hb
  rcases hb with rfl | rfl | rfl
  · exact ⟨hhundred, by simpa [follower] using hthree⟩
  · exact ⟨hone, by simpa [follower] using hhalf⟩
  · exact ⟨hone, by simpa using hhalf⟩

theorem made_crowded : ∀ b ∈ crowded, b.Made := by
  have hhundred : Decimal.ofWhole? 100 = some 100.0 := by decide +kernel
  have hthree : Decimal.ofWhole? 3 = some 3.0 := by decide +kernel
  have hgiven : ∀ b ∈ crowded, b.Each LoadVector.Given :=
    each_crowded (given_replicate rfl hhundred) (given_replicate rfl hthree)
      (given_replicate (by decide +kernel) rfl) (given_replicate (by decide +kernel) rfl)
  intro b hb
  obtain ⟨hcapacity, hload⟩ := hgiven b hb
  simp only [crowded, List.mem_cons, List.not_mem_nil, or_false] at hb
  rcases hb with rfl | rfl | rfl
  · exact made_of_parts "" hcapacity hload fun _ => by decide +kernel
  · exact made_of_parts "a" hcapacity hload nofun
  · exact made_of_parts "a" hcapacity hload nofun

/-- The cluster of the crowded brokers is written and read back. -/
theorem ofDocument_toDocument_crowded :
    let _ : Limits := Limits.measured
    let m : Cluster Mixed := ⟨inOrder crowded, 0.5, 3⟩
    m.Constructible ∧ (∀ b ∈ m.brokers, b.Each LoadVector.GivenNumbers) ∧ m.IdsReadable ∧
      ∃ d, ofDocument m.toDocument = .ok d ∧ d.Restores m := by
  intro _ m
  have hmem (b : Broker Mixed) (hb : b ∈ m.brokers) : b ∈ crowded :=
    (inOrder_perm crowded).mem_iff.mp hb
  have hdouble {x : Float} (hx : x.isNaN = false) :
      LoadVector.GivenNumbers (PerResource.replicate (.double x)) :=
    givenNumbers_replicate fun y hy => Mixed.double.inj hy ▸ hx
  have hnumbers : ∀ b ∈ crowded, b.Each LoadVector.GivenNumbers :=
    each_crowded (givenNumbers_replicate nofun) (givenNumbers_replicate nofun)
      (hdouble (by decide +kernel)) (hdouble (by decide +kernel))
  have hids : ∀ b ∈ crowded, b.id < digitLimit := by decide +kernel
  have hmake : make crowded 0.5 3 = .ok m := by
    apply make_eq_ok_iff.mpr
    exact ⟨by decide +kernel, by decide, by decide, by decide, rfl⟩
  have hconstructible : m.Constructible := ⟨crowded, 0.5, 3, made_crowded, hmake⟩
  have hnumbers := fun b hb => hnumbers b (hmem b hb)
  have hread : m.IdsReadable := fun b hb _ => hids b (hmem b hb)
  exact ⟨hconstructible, hnumbers, hread, (ofDocument_toDocument hconstructible hnumbers).1 hread⟩

theorem constructible_of_ordered {m : Cluster Mixed} (hmade : ∀ b ∈ m.brokers, b.Made)
    (hratio : 0.0 ≤ m.monitoredRatio ∧ m.monitoredRatio ≤ 1.0)
    (hids : m.brokers.Pairwise fun a b => a.id < b.id) (hled : (ledPartitions m.brokers).Nodup) :
    m.Constructible :=
  ⟨m.brokers, m.monitoredRatio, m.windows, hmade, make_of_ordered hratio hids hled⟩

/-- Brokers on one host, with the same amount of everything. -/
def hosted (id : Nat) (amount : Mixed) (replicas : List (Replica Mixed)) : Broker Mixed :=
  ⟨id, PerResource.replicate amount, replicas, "a", "", true⟩

theorem hosted_id (id : Nat) (amount : Mixed) (replicas : List (Replica Mixed)) :
    (hosted id amount replicas).id = id := rfl

theorem hosted_made {id : Nat} {amount : Mixed} {replicas : List (Replica Mixed)} {x : Float}
    (hnonneg : amount.isNegative = false) (hx : amount.toFloat? = some x)
    (hload : ∀ r ∈ replicas, LoadVector.Given r.load) : (hosted id amount replicas).Made :=
  made_of_parts "a" (given_replicate hnonneg hx) hload nofun

theorem hosted_numbers {id : Nat} {amount : Mixed} (h : ∀ x, amount = .double x → x.isNaN = false) :
    (hosted id amount []).Each LoadVector.GivenNumbers :=
  ⟨givenNumbers_replicate h, nofun⟩

theorem hosted_idReadable (id : Nat) (amount : Mixed) : (hosted id amount []).IdReadable :=
  fun hne => absurd rfl hne

/-- A broker with a replica and an id of 4301 digits. -/
def farthest : Cluster Mixed :=
  ⟨[hosted digitLimit (.whole 1) [follower ⟨"t", 0, t_ne_empty⟩ (.whole 1)]], 1.0, 1⟩

/-- A broker whose capacity has no double of its own. -/
def finest : Cluster Mixed := ⟨[hosted 0 (.whole 9007199254740993) []], 1.0, 1⟩

/-- Two brokers of a host whose capacities have doubles of their own, but their sum has none. -/
def unequal : Cluster Mixed :=
  ⟨[hosted 0 (.whole 9007199254740992) [], hosted 1 (.whole 1) []], 1.0, 1⟩

/-- Half of what is between one and the next double. -/
def speck : Float := 1.1102230246251565e-16

/-- Brokers of a host whose capacities have doubles of their own, but are of both kinds. -/
def motley : Cluster Mixed :=
  ⟨[hosted 0 (.whole 1) [], hosted 1 (.double speck) [], hosted 2 (.double speck) []], 1.0, 1⟩

theorem constructible_singleton {b : Broker Mixed} (h : b.Made) (hled : b.leaders = []) :
    Constructible ⟨[b], 1.0, 1⟩ := by
  have hratio : (0.0 : Float) ≤ 1.0 ∧ (1.0 : Float) ≤ 1.0 := by decide +kernel
  refine constructible_of_ordered (List.forall_mem_singleton.mpr h) hratio
    (List.pairwise_singleton ..) ?_
  rw [ledPartitions, List.flatMap_singleton, hled]
  exact List.nodup_nil

theorem ofWhole?_one : Decimal.ofWhole? 1 = some 1.0 := by decide +kernel

theorem farthest_constructible : farthest.Constructible :=
  constructible_singleton (hosted_made rfl ofWhole?_one
    (List.forall_mem_singleton.mpr (given_replicate rfl ofWhole?_one))) rfl

theorem finest_constructible : finest.Constructible :=
  constructible_singleton
    (hosted_made (x := 9007199254740992.0) rfl (by decide +kernel) nofun) rfl

theorem unequal_constructible : unequal.Constructible := by
  refine constructible_of_ordered ?_ (by decide +kernel) (by decide) List.nodup_nil
  exact List.forall_mem_cons.mpr
    ⟨hosted_made (x := 9007199254740992.0) rfl (by decide +kernel) nofun,
      List.forall_mem_singleton.mpr (hosted_made rfl ofWhole?_one nofun)⟩

theorem motley_constructible : motley.Constructible := by
  have hspeck (id : Nat) : (hosted id (.double speck) []).Made :=
    hosted_made (by decide +kernel) rfl nofun
  refine constructible_of_ordered ?_ (by decide +kernel) (by decide) List.nodup_nil
  exact List.forall_mem_cons.mpr ⟨hosted_made rfl ofWhole?_one nofun,
    List.forall_mem_cons.mpr ⟨hspeck 1, List.forall_mem_singleton.mpr (hspeck 2)⟩⟩

/-- What is read of the document of a cluster equals it, but a host has another capacity there. -/
def Diverges [Limits] (m : Cluster Mixed) : Prop :=
  ∃ d x, ofDocument m.toDocument = .ok d ∧ (d.map Mixed.double == m) = true ∧
    (m.hostNamed "a").givenCapacity? .cpu = some x ∧
      (Mixed.double ((d.hostNamed "a").capacity .cpu) == x) = false

/-- The document of a cluster need not be read, nor need what is read equal it, nor, if it does, do
its hosts need to have the same capacities. -/
theorem ofDocument_toDocument_altered :
    let _ : Limits := Limits.measured
    (farthest.Constructible ∧ (∀ b ∈ farthest.brokers, b.Each LoadVector.GivenNumbers) ∧
      ∀ d, ofDocument farthest.toDocument ≠ .ok d) ∧
    (finest.Constructible ∧ (∀ b ∈ finest.brokers, b.Each LoadVector.GivenNumbers) ∧
      ∃ d, ofDocument finest.toDocument = .ok d ∧ (d.map Mixed.double == finest) = false) ∧
    (unequal.Constructible ∧ (∀ b ∈ unequal.brokers, b.Each LoadVector.GivenNumbers) ∧
      unequal.Diverges) ∧
    motley.Constructible ∧ (∀ b ∈ motley.brokers, b.Each LoadVector.GivenNumbers) ∧
      motley.Diverges := by
  intro _
  have hwhole (id : Nat) (n : Int) : (hosted id (.whole n) []).Each LoadVector.GivenNumbers :=
    hosted_numbers nofun
  have hspeck (id : Nat) : (hosted id (.double speck) []).Each LoadVector.GivenNumbers :=
    hosted_numbers fun x hx => Mixed.double.inj hx ▸ (by decide +kernel)
  refine ⟨⟨farthest_constructible, ?_, fun d hd => ?_⟩, ⟨finest_constructible, ?_, ?_⟩,
    ⟨unequal_constructible, ?_, ?_⟩, motley_constructible, ?_, ?_⟩
  · exact List.forall_mem_singleton.mpr ⟨givenNumbers_replicate nofun,
      List.forall_mem_singleton.mpr (givenNumbers_replicate nofun)⟩
  · have hids : ¬farthest.IdsReadable := by
      intro h
      have hlt := List.forall_mem_singleton.mp h (List.cons_ne_nil _ _)
      rw [hosted_id] at hlt
      exact Nat.lt_irrefl _ hlt
    rw [ofDocument_of_unreadable (fun b hb => (farthest_constructible.made b hb).readAs) hids] at hd
    cases hd
  · exact List.forall_mem_singleton.mpr (hwhole ..)
  · have hids : finest.IdsReadable := List.forall_mem_singleton.mpr (hosted_idReadable _ _)
    exact ⟨_, finest_constructible.ofDocument_eq hids, by decide +kernel⟩
  · exact List.forall_mem_cons.mpr ⟨hwhole .., List.forall_mem_singleton.mpr (hwhole ..)⟩
  · have hids : unequal.IdsReadable := List.forall_mem_cons.mpr
      ⟨hosted_idReadable _ _, List.forall_mem_singleton.mpr (hosted_idReadable _ _)⟩
    exact ⟨_, .whole 9007199254740993, unequal_constructible.ofDocument_eq hids,
      by decide +kernel, by rfl, by decide +kernel⟩
  · exact List.forall_mem_cons.mpr ⟨hwhole ..,
      List.forall_mem_cons.mpr ⟨hspeck 1, List.forall_mem_singleton.mpr (hspeck 2)⟩⟩
  · have hids : motley.IdsReadable := List.forall_mem_cons.mpr ⟨hosted_idReadable _ _,
      List.forall_mem_cons.mpr
        ⟨hosted_idReadable _ _, List.forall_mem_singleton.mpr (hosted_idReadable _ _)⟩⟩
    -- what is rounded off when the first of the doubles is added to the whole number is lost
    exact ⟨_, .double (RunningTotal.add ⟨speck + Decimal.nearestRatio 1 1, 0.0⟩ speck).result,
      motley_constructible.ofDocument_eq hids, by decide +kernel, rfl, by decide +kernel⟩

end Cluster

end ClusterBalance
