import ClusterBalance.Proofs.Cluster.Answers
import ClusterBalance.Proofs.Decimal.Sums
import ClusterBalance.Proofs.Report.Measured

/-! The extremes that a report shows, which are searched from a value that nothing was measured to
be. Main statement: every use that is a number lies between the extremes; the greatest is a use of
some broker exactly if a use is a number at all, and the least exactly if a use is finite. Counts of
replicas lie between theirs, and the least is one of them unless they are all beyond its start. -/

namespace ClusterBalance

section Picked

variable {β L : Type} [Preorder L] {key : β → L} {valid : β → Prop} {pick : β → β → β} {start : β}

/-- A choice between two items: the second is taken only if it is valid, and of valid items one that
is not below the other. -/
structure Picks (key : β → L) (valid : β → Prop) (pick : β → β → β) : Prop where
  choice : ∀ a b, pick a b = a ∨ pick a b = b ∧ valid b
  left : ∀ a b, valid a → key a ≤ key (pick a b)
  right : ∀ a b, valid a → valid b → key b ≤ key (pick a b)

/-- What is taken of a first item and some others by one choice after the other. -/
structure Picked (key : β → L) (valid : β → Prop) (start : β) (xs : List β) (result : β) :
    Prop where
  kept : valid result
  start_le : key start ≤ key result
  item_le : ∀ x ∈ xs, valid x → key x ≤ key result
  mem : result = start ∨ result ∈ xs

theorem Picks.foldl (h : Picks key valid pick) (hstart : valid start) (xs : List β) :
    Picked key valid start xs (xs.foldl pick start) := by
  induction xs generalizing start with
  | nil => exact ⟨hstart, le_rfl, nofun, .inl rfl⟩
  | cons x xs ih =>
    -- the rest is searched from what is taken of the start and the first item
    have hnext : valid (pick start x) := by
      rcases h.choice start x with heq | ⟨heq, hx⟩
      · rwa [heq]
      · rwa [heq]
    obtain ⟨hvalid, hle, hitems, hmem⟩ := ih hnext
    refine ⟨hvalid, (h.left _ _ hstart).trans hle, ?_, ?_⟩
    · refine List.forall_mem_cons.mpr ⟨fun hx => ?_, hitems⟩
      exact (h.right _ _ hstart hx).trans hle
    · rcases hmem with hmem | hmem
      · rcases h.choice start x with heq | ⟨heq, -⟩
        · exact .inl (hmem.trans heq)
        · rw [List.foldl_cons, hmem, heq]
          exact .inr List.mem_cons_self
      · exact .inr (List.mem_cons_of_mem x hmem)

theorem Picked.le_iff {xs : List β} {result : β} (h : Picked key valid start xs result)
    (hvalid : ∀ x ∈ xs, valid x) (bound : L) :
    key result ≤ bound ↔ key start ≤ bound ∧ ∀ x ∈ xs, key x ≤ bound := by
  constructor
  · intro hle
    exact ⟨h.start_le.trans hle, fun x hx => (h.item_le x hx (hvalid x hx)).trans hle⟩
  · rintro ⟨hstart, hitems⟩
    rcases h.mem with rfl | hmem
    · exact hstart
    · exact hitems result hmem

/-- What is taken does not depend on the order of the items, nor on how often they come. -/
theorem Picked.key_eq {M : Type} [PartialOrder M] {key : β → M} {xs ys : List β}
    {result result' : β} (h : Picked key valid start xs result)
    (h' : Picked key valid start ys result') (hmem : ∀ x, x ∈ xs ↔ x ∈ ys) :
    key result = key result' := by
  apply le_antisymm
  · rcases h.mem with rfl | hx
    · exact h'.start_le
    · exact h'.item_le _ ((hmem _).mp hx) h.kept
  · rcases h'.mem with rfl | hx
    · exact h.start_le
    · exact h.item_le _ ((hmem _).mpr hx) h'.kept

/-- The choice of the second item exactly if it is better, where only valid items are better. -/
theorem picks_ite {M : Type} [LinearOrder M] {key : β → M} {better : β → β → Prop}
    [DecidableRel better] (hvalid : ∀ a b, better a b → valid b)
    (hbetter : ∀ a b, valid a → valid b → (better a b ↔ key a < key b)) :
    Picks key valid fun a b => if better a b then b else a where
  choice := fun a b => by
    split
    next h => exact .inr ⟨rfl, hvalid a b h⟩
    next => exact .inl rfl
  left := fun a b ha => by
    split
    next h => exact ((hbetter a b ha (hvalid a b h)).mp h).le
    next => exact le_rfl
  right := fun a b ha hb => by
    split
    next => exact le_rfl
    next h => exact not_lt.mp ((hbetter a b ha hb).not.mp h)

end Picked

section Uses

open Decimal Float.Model Float.Model.UnpackedFloat

variable {u : Float} {uses : List Float}

/-- How the extremes of some uses fit to them. -/
structure Extremes (uses : List Float) (maximum minimum : Float) : Prop where
  between : ∀ u ∈ uses, (minimum ≤ u ∧ u ≤ maximum) ↔ u.isNaN = false
  maximum_iff : (∃ u ∈ uses, (u == maximum) = true) ↔ ∃ u ∈ uses, u.isNaN = false
  minimum_iff : (∃ u ∈ uses, (u == minimum) = true) ↔ ∃ u ∈ uses, u.isFinite = true
  noNumber : (∀ u ∈ uses, u.isNaN = true) → maximum = 0.0
  noFinite : (∀ u ∈ uses, u.isFinite = false) → minimum = Scalar.largest

theorem isFinite_largest : (Scalar.largest : Float).isFinite = true := by decide +kernel

theorem isNaN_largest : (Scalar.largest : Float).isNaN = false := isNaN_of_isFinite isFinite_largest

theorem value_largest : value Scalar.largest = (2 * hiddenBit - 1 : ℕ) * 2 ^ greatestExponent := by
  change amount (ofMagnitude false (infinityBits - 1)).toModel.unpack = _
  rw [unpack_ofMagnitude _ (Nat.sub_le _ _)]
  rfl

theorem le_largest (h : u.isFinite = true) : u ≤ Scalar.largest := by
  rw [le_iff_value h isFinite_largest, value_largest]
  obtain ⟨hrounded, hexponent⟩ := unpack_of_isFinite h
  unfold value
  generalize u.toModel.unpack = v at hrounded hexponent
  cases hrounded with
  | zero s =>
    change (0 : ℚ) ≤ _
    positivity
  | @finite s m e hm hcanonical =>
    have hlt := hcanonical.lt
    have hle : ((s.apply m : ℤ) : ℚ) ≤ (2 * hiddenBit - 1 : ℕ) := by
      have hsign : s.apply m ≤ (2 * hiddenBit - 1 : ℕ) := by
        cases s <;> simp only [Sign.apply] <;> omega
      exact_mod_cast hsign
    change ((s.apply m : ℤ) : ℚ) * 2 ^ e ≤ _
    gcongr
    · norm_num
    · exact hexponent s m e hm rfl

/-- Of the doubles that are not below zero the finite ones are those up to the largest. -/
theorem isFinite_iff_le_largest (hu : NotNegative u) :
    u.isFinite = true ↔ u ≤ Scalar.largest := by
  refine ⟨le_largest, fun hle => ?_⟩
  by_contra hinfinite
  rw [Bool.not_eq_true] at hinfinite
  have hne := (notNegative_iff_unpack hinfinite).mp hu
  have hspecial := isSpecial_of_isFinite hinfinite
  have hnumber := isNaN_left_of_le hle
  have hnotNaN : u.toModel.unpack.isNaN = false := hnumber
  rw [le_iff_place hnumber isNaN_largest, place_of_isFinite isFinite_largest, place] at hle
  generalize u.toModel.unpack = v at hne hspecial hle hnotNaN
  rcases hspecial with ⟨_ | _⟩ | _
  · exact hne rfl
  · exact absurd hle (by simp [extended])
  · cases hnotNaN

theorem picks_larger :
    Picks place (·.isNaN = false) (Scalar.larger : Float → Float → Float) :=
  picks_ite (fun _ _ hlt => (isNaN_of_lt hlt).2) fun _ _ ha hb => lt_iff_place ha hb

theorem picks_smaller :
    Picks (OrderDual.toDual ∘ place) (·.isNaN = false)
      (Scalar.smaller : Float → Float → Float) :=
  picks_ite (fun _ _ hlt => (isNaN_of_lt hlt).1) fun _ _ ha hb => lt_iff_place hb ha

section Searched

variable {maximum minimum : Float}

/-- The greatest use is the start of its search only if it is a use too, or no use is a number. -/
theorem exists_beq_maximum_iff (h : ∀ u ∈ uses, NotNegative u)
    (hmaximum : Picked place (·.isNaN = false) 0.0 uses maximum) :
    (∃ u ∈ uses, (u == maximum) = true) ↔ ∃ u ∈ uses, u.isNaN = false := by
  constructor
  · rintro ⟨u, hu, heq⟩
    exact ⟨u, hu, (isNaN_of_beq heq).1⟩
  · rintro ⟨u, hu, hnumber⟩
    rcases hmaximum.mem with rfl | hmem
    · -- no use is below zero, so a use that zero is not below is zero
      refine ⟨u, hu, (beq_iff_place hnumber isNaN_zero).mpr (le_antisymm ?_ ?_)⟩
      · exact hmaximum.item_le u hu hnumber
      · exact not_lt.mp ((lt_iff_place hnumber isNaN_zero).not.mp (h u hu))
    · exact ⟨maximum, hmem, beq_self_of_isNaN hmaximum.kept⟩

/-- The least use is the start of its search only if it is a use too, or no use is finite. -/
theorem exists_beq_minimum_iff (h : ∀ u ∈ uses, NotNegative u)
    (hminimum : Picked (OrderDual.toDual ∘ place) (·.isNaN = false) Scalar.largest uses minimum) :
    (∃ u ∈ uses, (u == minimum) = true) ↔ ∃ u ∈ uses, u.isFinite = true := by
  constructor
  · rintro ⟨u, hu, heq⟩
    have hnumber := (isNaN_of_beq heq).1
    refine ⟨u, hu, (isFinite_iff_le_largest (h u hu)).mpr ?_⟩
    rw [le_iff_place hnumber isNaN_largest, (beq_iff_place hnumber hminimum.kept).mp heq]
    exact hminimum.start_le
  · rintro ⟨u, hu, hfinite⟩
    have hnumber := isNaN_of_isFinite hfinite
    rcases hminimum.mem with rfl | hmem
    · -- no finite use is above the largest double, so one that is not below it is that double
      refine ⟨u, hu, (beq_iff_place hnumber isNaN_largest).mpr (le_antisymm ?_ ?_)⟩
      · exact (le_iff_place hnumber isNaN_largest).mp (le_largest hfinite)
      · exact hminimum.item_le u hu hnumber
    · exact ⟨minimum, hmem, beq_self_of_isNaN hminimum.kept⟩

end Searched

theorem extremes_of_notNegative (h : ∀ u ∈ uses, NotNegative u) :
    Extremes uses (uses.foldl Scalar.larger 0) (uses.foldl Scalar.smaller Scalar.largest) := by
  have hmaximum := picks_larger.foldl isNaN_zero uses
  have hminimum := picks_smaller.foldl isNaN_largest uses
  change Extremes uses (uses.foldl Scalar.larger 0.0) _
  generalize uses.foldl Scalar.larger 0.0 = maximum at hmaximum
  generalize uses.foldl Scalar.smaller Scalar.largest = minimum at hminimum
  refine ⟨fun u hu => ⟨fun hbetween => isNaN_of_le hbetween.1, fun hnumber => ⟨?_, ?_⟩⟩,
    exists_beq_maximum_iff h hmaximum, exists_beq_minimum_iff h hminimum, ?_, ?_⟩
  · exact (le_iff_place hminimum.kept hnumber).mpr (hminimum.item_le u hu hnumber)
  · exact (le_iff_place hnumber hmaximum.kept).mpr (hmaximum.item_le u hu hnumber)
  · intro hnone
    refine hmaximum.mem.resolve_right fun hmem => ?_
    exact Bool.false_ne_true (hmaximum.kept.symm.trans (hnone maximum hmem))
  · intro hnone
    refine hminimum.mem.resolve_right fun hmem => ?_
    have hle := (le_iff_place hminimum.kept isNaN_largest).mpr hminimum.start_le
    have hfinite := (isFinite_iff_le_largest (h minimum hmem)).mpr hle
    exact Bool.false_ne_true ((hnone minimum hmem).symm.trans hfinite)

end Uses

section Counts

variable {counts : List Nat}

/-- How the extremes of some counts fit to them. -/
structure CountExtremes (counts : List Nat) (maximum minimum : Nat) : Prop where
  between : ∀ n ∈ counts, minimum ≤ n ∧ n ≤ maximum
  maximum_mem : maximum ∈ counts
  minimum_mem_iff : minimum ∈ counts ↔ ∃ n ∈ counts, n ≤ unboundedCount
  unbounded : (∀ n ∈ counts, unboundedCount < n) → minimum = unboundedCount

theorem picked_greatestCount (counts : List Nat) :
    Picked id (fun _ => True) 0 counts (greatestCount counts) := by
  refine Picks.foldl ⟨fun a b => ?_, fun a b _ => le_max_left a b, fun a b _ _ => le_max_right a b⟩
    trivial counts
  exact (max_choice a b).imp_right fun heq => ⟨heq, trivial⟩

theorem picked_leastCount (counts : List Nat) :
    Picked OrderDual.toDual (fun _ => True) unboundedCount counts (leastCount counts) := by
  refine Picks.foldl ⟨fun a b => ?_, fun a b _ => min_le_left a b, fun a b _ _ => min_le_right a b⟩
    trivial counts
  exact (min_choice a b).imp_right fun heq => ⟨heq, trivial⟩

theorem greatestCount_le_iff {n : Nat} : greatestCount counts ≤ n ↔ ∀ m ∈ counts, m ≤ n := by
  have hle := (picked_greatestCount counts).le_iff (fun _ _ => trivial) n
  rwa [id, id, and_iff_right n.zero_le] at hle

theorem le_leastCount_iff {n : Nat} :
    n ≤ leastCount counts ↔ n ≤ unboundedCount ∧ ∀ m ∈ counts, n ≤ m :=
  (picked_leastCount counts).le_iff (fun _ _ => trivial) (OrderDual.toDual n)

theorem le_greatestCount {m : Nat} (hm : m ∈ counts) : m ≤ greatestCount counts :=
  (picked_greatestCount counts).item_le m hm trivial

theorem leastCount_le {m : Nat} (hm : m ∈ counts) : leastCount counts ≤ m :=
  (picked_leastCount counts).item_le m hm trivial

theorem greatestCount_flatMap {β : Type} (xs : List β) (f : β → List Nat) :
    greatestCount (xs.map fun x => greatestCount (f x)) = greatestCount (xs.flatMap f) := by
  refine eq_of_forall_ge_iff fun n => ?_
  simp only [greatestCount_le_iff, List.forall_mem_map, List.mem_flatMap]
  grind

theorem leastCount_flatMap {β : Type} (xs : List β) (f : β → List Nat) :
    leastCount (xs.map fun x => leastCount (f x)) = leastCount (xs.flatMap f) := by
  refine eq_of_forall_le_iff fun n => ?_
  simp only [le_leastCount_iff, List.forall_mem_map, List.mem_flatMap]
  grind

theorem countExtremes_of_ne_nil (h : counts ≠ []) :
    CountExtremes counts (greatestCount counts) (leastCount counts) := by
  have hmaximum := picked_greatestCount counts
  have hminimum := picked_leastCount counts
  have hle : leastCount counts ≤ unboundedCount := hminimum.start_le
  refine ⟨fun n hn => ⟨leastCount_le hn, le_greatestCount hn⟩, ?_,
    ⟨fun hmem => ⟨_, hmem, hle⟩, ?_⟩, fun hbeyond => ?_⟩
  · rcases hmaximum.mem with hzero | hmem
    · obtain ⟨n, hn⟩ := List.exists_mem_of_ne_nil counts h
      have hn' := le_greatestCount hn
      rwa [show greatestCount counts = n by omega]
    · exact hmem
  · rintro ⟨n, hn, hbound⟩
    rcases hminimum.mem with hstart | hmem
    · have hn' := leastCount_le hn
      rwa [show leastCount counts = n by omega]
    · exact hmem
  · refine hminimum.mem.resolve_right fun hmem => ?_
    exact absurd hle (not_le.mpr (hbeyond _ hmem))

end Counts

namespace Cluster

open Decimal

section NotNegative

variable {c : Cluster Float} {b : Broker Float}

theorem notNegative_load (hc : c.Accepted) (hb : b ∈ c.brokers) (r : Resource) :
    NotNegative (b.load.get r) := by
  refine notNegative_sum fun v hv => ?_
  obtain ⟨replica, hreplica, rfl⟩ := List.mem_map.mp hv
  exact notNegative_of_negative? ((hc.admitted b hb).load replica hreplica) r

theorem notNegative_used (hc : c.Accepted) (hb : b ∈ c.brokers) (r : Resource) :
    NotNegative (c.measured r b).1 := by
  unfold Cluster.measured
  split
  · refine notNegative_compensatedSum fun x hx => ?_
    obtain ⟨b', hb', rfl⟩ := List.mem_map.mp hx
    exact notNegative_load hc (List.mem_filter.mp hb').1 r
  · exact notNegative_load hc hb r

/-- The load that a replica would bring is its own or that of a leader. -/
theorem leadershipLoad_eq (leaders : List (Nat × Replica Float)) (r : Replica Float) :
    leadershipLoad leaders r = r.load ∨ ∃ x ∈ leaders, leadershipLoad leaders r = x.2.load := by
  unfold leadershipLoad
  cases hfind : leaders.find? fun (_, leader) => leader.partition = r.partition with
  | none => exact .inl rfl
  | some x => exact .inr ⟨x, List.mem_of_find?_eq_some hfind, rfl⟩

theorem notNegative_potentialOut (hc : c.Accepted) (hb : b ∈ c.brokers) :
    NotNegative (c.potentialOut b) := by
  refine notNegative_sum fun v hv => ?_
  obtain ⟨replica, hreplica, rfl⟩ := List.mem_map.mp hv
  rcases leadershipLoad_eq c.leaders replica with heq | ⟨x, hx, heq⟩
  · rw [heq]
    exact notNegative_of_negative? ((hc.admitted b hb).load replica hreplica) _
  · rw [heq]
    obtain ⟨b', hb', hplaced⟩ := List.mem_flatMap.mp (List.mem_of_mem_filter hx)
    obtain ⟨leader, hleader, rfl⟩ := List.mem_map.mp hplaced
    exact notNegative_of_negative? ((hc.admitted b' hb').load leader hleader) _

end NotNegative

/-- How the extremes of a report fit to what is measured of the brokers. -/
structure Bounded (c : Cluster Float) (report : Report Float) : Prop where
  utilization : ∀ r, Extremes (c.aliveBrokers.map fun b => (c.measured r b).1)
    (report.utilization.get r).maximum (report.utilization.get r).minimum
  potentialOut : Extremes (c.aliveBrokers.map c.potentialOut) report.potentialOut.maximum
    report.potentialOut.minimum
  replicas : CountExtremes (c.brokers.map (·.numReplicas)) report.replicas.maximum
    report.replicas.minimum
  leaders : CountExtremes (c.brokers.map (·.numLeaders)) report.leaders.maximum
    report.leaders.minimum
  topics : CountExtremes (c.topics.flatMap fun topic => c.brokers.map (·.numReplicasOf topic))
    report.topics.maximum report.topics.minimum

/-- The extremes in the report of an accepted cluster fit to what is measured of its brokers. -/
theorem measure_bounded {c : Cluster Float} {k : Constraint Float} {report : Report Float}
    (hc : c.Accepted) (h : c.measure k = .ok report) : c.Bounded report := by
  have hmeasured := measured_of_measure h
  have hbrokers : c.brokers ≠ [] := by
    intro hnone
    apply hmeasured.alive
    rw [aliveBrokers, hnone, List.filter_nil]
  have hcounts (count : Broker Float → Nat) : c.brokers.map count ≠ [] :=
    List.map_eq_nil_iff.not.mpr hbrokers
  refine ⟨fun r => ?_, ?_, ?_, ?_, ?_⟩
  · obtain ⟨s, hs, hspread, -⟩ := hmeasured.resource r
    obtain ⟨hmaximum, hminimum⟩ := extremes_of_summarizeResource hs
    rw [hspread, hmaximum, hminimum]
    refine extremes_of_notNegative (List.forall_mem_map.mpr fun b hb => ?_)
    exact notNegative_used hc (List.mem_of_mem_filter hb) r
  · obtain ⟨s, hs, hspread, -⟩ := hmeasured.potential
    obtain ⟨hmaximum, hminimum⟩ := extremes_of_summarizePotential hs
    rw [hspread, hmaximum, hminimum]
    refine extremes_of_notNegative (List.forall_mem_map.mpr fun b hb => ?_)
    exact notNegative_potentialOut hc (List.mem_of_mem_filter hb)
  · obtain ⟨hmaximum, hminimum⟩ := extremes_of_summarizeCounts hmeasured.replicas
    rw [hmaximum, hminimum]
    exact countExtremes_of_ne_nil (hcounts _)
  · obtain ⟨hmaximum, hminimum⟩ := extremes_of_summarizeCounts hmeasured.leaders
    rw [hmaximum, hminimum]
    exact countExtremes_of_ne_nil (hcounts _)
  · obtain ⟨hmaximum, hminimum⟩ := extremes_of_summarizeTopics hmeasured.topics
    rw [hmaximum, hminimum, greatestCount_flatMap, leastCount_flatMap]
    apply countExtremes_of_ne_nil
    obtain ⟨topic, htopic⟩ :=
      List.exists_mem_of_ne_nil _ (topics_ne_nil_of_summarizeTopics hmeasured.topics)
    intro hnone
    exact hcounts _ (List.flatMap_eq_nil_iff.mp hnone topic htopic)

/-- A broker whose two replicas use more of the processor together than a finite double can say. -/
def overfull : Cluster Float where
  brokers :=
    [ { id := 0, capacity := PerResource.replicate 1.0, host := "a", rack := "", alive := true
        replicas :=
          [⟨⟨"t", 0, t_ne_empty⟩, true, ⟨1e308, 0.0, 0.0, 0.0⟩, false⟩,
            ⟨⟨"t", 1, t_ne_empty⟩, true, ⟨1e308, 0.0, 0.0, 0.0⟩, false⟩] } ]
  monitoredRatio := 1.0
  windows := 1

/-- No use of the processor in the overfull cluster is finite, so that the least use is the largest
double, which no broker uses. -/
theorem measure_bounded_overfull :
    overfull.Accepted ∧ ∃ report, overfull.measure Constraint.default = .ok report ∧
      overfull.Bounded report ∧ (report.utilization.get .cpu).minimum = Scalar.largest ∧
      ¬∃ b ∈ overfull.aliveBrokers,
        ((overfull.measured .cpu b).1 == (report.utilization.get .cpu).minimum) = true := by
  have haccepted : overfull.Accepted := by
    refine ⟨overfull.brokers, 1.0, 1, ?_, make_eq_ok_iff.mpr ?_⟩
    · exact List.forall_mem_singleton.mpr
        ⟨by decide +kernel, by decide +kernel, by decide⟩
    · have hsorted : inOrder overfull.brokers = overfull.brokers := List.mergeSort_singleton _
      exact ⟨by decide +kernel, by decide, by decide, by decide, by rw [hsorted]; rfl⟩
  obtain ⟨report, hreport⟩ : ∃ report, overfull.measure Constraint.default = .ok report :=
    exists_eq_ok_of_isOk (by decide +kernel)
  have hbounded := measure_bounded haccepted hreport
  have hinfinite : ∀ u ∈ overfull.aliveBrokers.map fun b => (overfull.measured .cpu b).1,
      u.isFinite = false := by decide +kernel
  refine ⟨haccepted, report, hreport, hbounded, (hbounded.utilization .cpu).noFinite hinfinite, ?_⟩
  rintro ⟨b, hb, heq⟩
  obtain ⟨u, hu, hfinite⟩ :=
    (hbounded.utilization .cpu).minimum_iff.mp ⟨_, List.mem_map_of_mem hb, heq⟩
  exact Bool.false_ne_true ((hinfinite u hu).symm.trans hfinite)

end Cluster

end ClusterBalance
