import Mathlib
import ClusterBalance.Proofs.Cluster.Answers
import ClusterBalance.Proofs.Exact.Widening
import ClusterBalance.Proofs.Statistics.Divisors

/-! The deviation of a count of replicas by broker, in exact arithmetic. Main statement: its square
is the variance of the counts of the alive brokers and the square of what the dead brokers add to
the average, so it is zero exactly if the alive brokers count the same and the dead ones nothing. -/

namespace ClusterBalance

namespace Exact

/-- The mean of some counts. -/
noncomputable def mean (counts : List Nat) : ℝ := totalCount counts / counts.length

/-- The mean square of the distances of some counts from a number. -/
noncomputable def meanSquare (center : ℝ) (counts : List Nat) : ℝ :=
  (counts.map fun m : Nat => ((m : ℝ) - center) ^ 2).sum / counts.length

/-- The variance of some counts: the mean square of their distances from their mean. -/
noncomputable def variance (counts : List Nat) : ℝ := meanSquare (mean counts) counts

section Length

variable {β : Type} {xs : List β}

theorem length_pos_int (h : xs ≠ []) : (0 : Int) < xs.length := by
  exact_mod_cast List.length_pos_iff.mpr h

theorem length_pos_real (h : xs ≠ []) : (0 : ℝ) < xs.length := by
  exact_mod_cast List.length_pos_iff.mpr h

end Length

section Sums

variable {β : Type} {f : β → ℝ} {xs : List β}

theorem sum_eq_zero_iff_of_nonneg (h : ∀ x ∈ xs, 0 ≤ f x) :
    (xs.map f).sum = 0 ↔ ∀ x ∈ xs, f x = 0 := by
  constructor
  · intro hsum x hx
    exact List.all_zero_of_le_zero_le_of_sum_eq_zero (List.forall_mem_map.mpr h) hsum
      (List.mem_map_of_mem hx)
  · exact fun hzero => List.sum_eq_zero (List.forall_mem_map.mpr hzero)

theorem sum_sq_eq_zero_iff : (xs.map fun x => f x ^ 2).sum = 0 ↔ ∀ x ∈ xs, f x = 0 := by
  rw [sum_eq_zero_iff_of_nonneg fun _ _ => sq_nonneg _]
  simp only [sq_eq_zero_iff]

end Sums

section Counts

variable {counts : List Nat}

theorem cast_totalCount (counts : List Nat) :
    (totalCount counts : ℝ) = (counts.map fun m : Nat => (m : ℝ)).sum := by
  rw [Cluster.totalCount_eq_sum]
  exact Nat.cast_list_sum counts

/-- From any number, counts are as far as from their mean and the mean is from that number. -/
theorem meanSquare_eq (center : ℝ) (h : counts ≠ []) :
    meanSquare center counts = variance counts + (mean counts - center) ^ 2 := by
  have hlength : (counts.length : ℝ) ≠ 0 := (length_pos_real h).ne'
  have hexpand (a : ℝ) : (counts.map fun m : Nat => ((m : ℝ) - a) ^ 2).sum =
      (counts.map fun m : Nat => (m : ℝ) ^ 2).sum - 2 * a * totalCount counts +
        counts.length * a ^ 2 := by
    rw [cast_totalCount]
    clear h hlength
    induction counts with
    | nil => simp
    | cons m counts ih =>
      simp only [List.map_cons, List.sum_cons, ih, List.length_cons]
      push_cast
      ring
  rw [variance, meanSquare, meanSquare, hexpand, hexpand, mean]
  field_simp
  ring

theorem meanSquare_nonneg (center : ℝ) (counts : List Nat) : 0 ≤ meanSquare center counts := by
  refine div_nonneg (List.sum_nonneg fun x hx => ?_) (Nat.cast_nonneg _)
  obtain ⟨m, -, rfl⟩ := List.mem_map.mp hx
  exact sq_nonneg _

theorem variance_nonneg (counts : List Nat) : 0 ≤ variance counts :=
  meanSquare_nonneg _ _

/-- Counts do not vary exactly if they are all the same. -/
theorem variance_eq_zero_iff : variance counts = 0 ↔ ∀ m ∈ counts, ∀ n ∈ counts, m = n := by
  rcases eq_or_ne counts [] with rfl | hne
  · simp [variance, meanSquare]
  have hlength : (counts.length : ℝ) ≠ 0 := (length_pos_real hne).ne'
  constructor
  · intro hzero
    have hsum : (counts.map fun m : Nat => ((m : ℝ) - mean counts) ^ 2).sum = 0 :=
      (div_eq_zero_iff.mp hzero).resolve_right hlength
    have hmean (m : Nat) (hm : m ∈ counts) : (m : ℝ) = mean counts :=
      sub_eq_zero.mp (sum_sq_eq_zero_iff.mp hsum m hm)
    intro m hm n hn
    exact_mod_cast (hmean m hm).trans (hmean n hn).symm
  · intro hsame
    obtain ⟨m, hm⟩ := List.exists_mem_of_ne_nil counts hne
    have hcounts : counts = List.replicate counts.length m :=
      List.eq_replicate_of_mem fun n hn => hsame n hn m hm
    have hmean : mean counts = m := by
      rw [mean, cast_totalCount, hcounts]
      simp only [List.map_replicate, List.sum_replicate, List.length_replicate, nsmul_eq_mul]
      exact mul_div_cancel_left₀ _ hlength
    rw [variance, meanSquare, hmean, hcounts]
    simp

end Counts

section Summary

variable {c : Cluster ℝ}

theorem countDeviation_length {counts : List Nat} (h : counts ≠ []) (average : ℝ) :
    countDeviation average (.count counts.length) counts =
      .ok (Real.sqrt (meanSquare average counts)) := by
  have hshares : (counts.map fun m : Nat =>
      ((m : ℝ) - average) * ((m : ℝ) - average) / ((counts.length : Int) : ℝ)).sum =
        meanSquare average counts := by
    simp only [meanSquare, ← sq, div_eq_mul_inv, List.sum_map_mul_right, Int.cast_natCast]
  rw [countDeviation_eq (length_pos_int h), hshares]

theorem summarizeCounts_eq (halive : c.aliveBrokers ≠ []) (count : Broker ℝ → Nat) :
    c.summarizeCounts count (.count c.aliveBrokers.length) = .ok {
      average := (totalCount (c.brokers.map count) : ℝ) / c.aliveBrokers.length
      maximum := greatestCount (c.brokers.map count)
      minimum := leastCount (c.brokers.map count)
      deviation := Real.sqrt (meanSquare
        ((totalCount (c.brokers.map count) : ℝ) / c.aliveBrokers.length)
        (c.aliveBrokers.map count)) } := by
  have hcounts : c.aliveBrokers.map count ≠ [] := List.map_eq_nil_iff.not.mpr halive
  have hdeviation := countDeviation_length hcounts
  rw [List.length_map] at hdeviation
  simp only [Cluster.summarizeCounts, countDivideCount_eq (length_pos_int halive), ok_bind,
    hdeviation, Int.cast_natCast]
  rfl

end Summary

end Exact

namespace Cluster

variable {count : Broker ℝ → Nat}

/-- How the average and the deviation of a count are made up of what the alive brokers count and
what the dead ones do. -/
structure Decomposed (c : Cluster ℝ) (count : Broker ℝ → Nat) (s : Spread ℝ Nat) : Prop where
  average : s.average = ((totalCount (c.aliveBrokers.map count) : ℝ) +
    totalCount (c.deadBrokers.map count)) / c.aliveBrokers.length
  deviation_nonneg : 0 ≤ s.deviation
  deviation_sq : s.deviation ^ 2 = Exact.variance (c.aliveBrokers.map count) +
    ((totalCount (c.deadBrokers.map count) : ℝ) / c.aliveBrokers.length) ^ 2
  deviation_eq_zero_iff : s.deviation = 0 ↔ (∀ b ∈ c.deadBrokers, count b = 0) ∧
    ∀ a ∈ c.aliveBrokers, ∀ b ∈ c.aliveBrokers, count a = count b

/-- What all brokers add up to is what the alive ones do, and the dead ones. -/
theorem sum_brokers {M : Type} [AddCommMonoid M] (c : Cluster ℝ) (f : Broker ℝ → M) :
    (c.brokers.map f).sum = (c.aliveBrokers.map f).sum + (c.deadBrokers.map f).sum := by
  rw [← List.sum_append, ← List.map_append]
  exact ((List.filter_append_perm (·.alive) c.brokers).map f).sum_eq.symm

/-- Every broker is counted among the alive or among the dead ones. -/
theorem totalCount_brokers (c : Cluster ℝ) (count : Broker ℝ → Nat) :
    totalCount (c.brokers.map count) =
      totalCount (c.aliveBrokers.map count) + totalCount (c.deadBrokers.map count) := by
  simp only [totalCount_eq_sum, sum_brokers]

theorem totalCount_eq_zero_iff {brokers : List (Broker ℝ)} :
    totalCount (brokers.map count) = 0 ↔ ∀ b ∈ brokers, count b = 0 := by
  rw [totalCount_eq_sum, List.sum_eq_zero_iff, List.forall_mem_map]

/-- Where a broker is alive, every count of replicas has an average and a deviation. The replicas on
dead brokers raise the average, and so the distance of the alive brokers from it. -/
theorem summarizeCounts_decomposed (c : Cluster ℝ) (count : Broker ℝ → Nat)
    (halive : c.aliveBrokers ≠ []) :
    ∃ s, c.summarizeCounts count (.count c.aliveBrokers.length) = .ok s ∧
      c.Decomposed count s := by
  have hcounts : c.aliveBrokers.map count ≠ [] := List.map_eq_nil_iff.not.mpr halive
  have hlength : (c.aliveBrokers.length : ℝ) ≠ 0 := (Exact.length_pos_real halive).ne'
  have hsquare : Exact.meanSquare
      ((totalCount (c.brokers.map count) : ℝ) / c.aliveBrokers.length) (c.aliveBrokers.map count) =
        Exact.variance (c.aliveBrokers.map count) +
          ((totalCount (c.deadBrokers.map count) : ℝ) / c.aliveBrokers.length) ^ 2 := by
    rw [Exact.meanSquare_eq _ hcounts, Exact.mean, List.length_map, totalCount_brokers]
    push_cast
    ring
  refine ⟨_, Exact.summarizeCounts_eq halive count, ?_, Real.sqrt_nonneg _, ?_, ?_⟩
  · rw [totalCount_brokers, Nat.cast_add]
  · rw [Real.sq_sqrt (Exact.meanSquare_nonneg _ _), hsquare]
  · rw [Real.sqrt_eq_zero (Exact.meanSquare_nonneg _ _), hsquare,
      add_eq_zero_iff_of_nonneg (Exact.variance_nonneg _) (sq_nonneg _), Exact.variance_eq_zero_iff]
    simp only [List.forall_mem_map, sq_eq_zero_iff, div_eq_zero_iff, hlength, or_false,
      Nat.cast_eq_zero, totalCount_eq_zero_iff, and_comm]

/-- The cluster of two brokers and a dead one that shares the host of the second. -/
noncomputable def bereft : Cluster ℝ where
  brokers := [loaded 0 "a" 1, loaded 1 "b" 1, { loaded 2 "b" 1 with alive := false }]
  monitoredRatio := 1.0
  windows := 1

/-- Both alive brokers have one replica, and the count deviates all the same, as the dead one has
one too. -/
theorem summarizeCounts_decomposed_bereft : bereft.aliveBrokers ≠ [] ∧
    ∃ s, bereft.summarizeCounts Broker.numReplicas (.count bereft.aliveBrokers.length) = .ok s ∧
      bereft.Decomposed Broker.numReplicas s ∧ s.deviation ≠ 0 := by
  have halive : bereft.aliveBrokers ≠ [] := List.cons_ne_nil _ _
  obtain ⟨s, hs, hdecomposed⟩ := bereft.summarizeCounts_decomposed Broker.numReplicas halive
  refine ⟨halive, s, hs, hdecomposed, fun hzero => ?_⟩
  have hdead := (hdecomposed.deviation_eq_zero_iff.mp hzero).1
  exact absurd (hdead _ (List.mem_singleton.mpr rfl)) Nat.one_ne_zero

end Cluster

end ClusterBalance
