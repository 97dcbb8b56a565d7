import Mathlib.Analysis.SpecialFunctions.Sqrt
import ClusterBalance.LoadVector
import ClusterBalance.Statistics.Divisor

/-! The real numbers as scalars: arithmetic without rounding and without overflow. Main statements:
over the reals a quotient fails exactly for the divisor zero, a root exactly for a negative number,
and every sum is the plain sum. -/

namespace ClusterBalance

/-- Exact arithmetic. The extremes of a measurement start where those of doubles start. -/
noncomputable instance : Scalar ℝ where
  toZero := inferInstance
  toAdd := inferInstance
  toSub := inferInstance
  toMul := inferInstance
  toDiv := inferInstance
  toLE := inferInstance
  toLT := inferInstance
  leDecidable := fun _ _ => Classical.propDecidable _
  ltDecidable := fun _ _ => Classical.propDecidable _
  ofNat := fun n => n
  ofInt? := fun n => .ok n
  ratio := fun m n => m / n
  abs := fun x => |x|
  isInfinite := fun _ => false
  square? := fun x => .ok (x * x)
  sqrt? := fun x => if x < 0 then .error .negativeRoot else .ok (Real.sqrt x)
  total := List.sum
  largest := (Nat.pow 2 53 - 1 : Nat) * (Nat.pow 2 971 : Nat)
  tolerance := 1 / 1000000000

namespace Exact

theorem isZero_iff (x : ℝ) : Scalar.isZero x = true ↔ x = 0 := by
  rw [Scalar.isZero, Scalar.same, Bool.and_eq_true, decide_eq_true_iff, decide_eq_true_iff]
  exact antisymm_iff

theorem divide_eq (q : Quantity) (x y : ℝ) :
    divide q x y = if y = 0 then .error (.degenerate q) else .ok (x / y) := by
  simp only [divide, isZero_iff]

theorem divide_eq_ok_iff {q : Quantity} {x y z : ℝ} :
    divide q x y = .ok z ↔ y ≠ 0 ∧ z = x / y := by
  rw [divide_eq]
  by_cases h : y = 0
  · rw [if_pos h]
    exact iff_of_false nofun fun hne => hne.1 h
  · rw [if_neg h, Except.ok.injEq, eq_comm]
    exact (and_iff_right h).symm

theorem divideByCount_eq (q : Quantity) (x : ℝ) (n : Int) :
    divideByCount q x n = if n = 0 then .error (.degenerate q) else .ok (x / n) := rfl

theorem eq_of_divideByCount {q : Quantity} {x z : ℝ} {n : Int}
    (h : divideByCount q x n = .ok z) : z = x / n := by
  rw [divideByCount_eq] at h
  split at h
  · cases h
  · exact (Except.ok.inj h).symm

theorem countRatio_eq (q : Quantity) (m n : Int) :
    countRatio q m n = if n = 0 then .error (.degenerate q) else .ok ((m : ℝ) / n) := rfl

theorem sqrt?_of_nonneg {x : ℝ} (h : 0 ≤ x) : Scalar.sqrt? x = .ok (Real.sqrt x) :=
  if_neg (not_lt.mpr h)

theorem eq_of_sqrt? {x y : ℝ} (h : StatsError.lift (Scalar.sqrt? x) = .ok y) :
    y = Real.sqrt x := by
  by_cases hneg : x < 0
  · rw [show Scalar.sqrt? x = _ from if_pos hneg] at h
    cases h
  · rw [sqrt?_of_nonneg (not_lt.mp hneg)] at h
    exact (Except.ok.inj h).symm

theorem sum_eq (xs : List ℝ) : Scalar.sum xs = xs.sum := by
  rw [Scalar.sum, List.sum_eq_foldl]

theorem get_add (v w : LoadVector ℝ) (r : Resource) : (v.add w).get r = v.get r + w.get r :=
  PerResource.get_ofFn ..

theorem get_sum (vs : List (LoadVector ℝ)) (r : Resource) :
    (LoadVector.sum vs).get r = (vs.map (·.get r)).sum := by
  have hfoldl : ∀ v : LoadVector ℝ,
      (vs.foldl LoadVector.add v).get r = v.get r + (vs.map (·.get r)).sum := by
    induction vs with
    | nil => simp
    | cons w ws ih =>
      intro v
      rw [List.foldl_cons, ih, get_add, List.map_cons, List.sum_cons, add_assoc]
  have hempty : (LoadVector.empty : LoadVector ℝ).get r = 0 := PerResource.get_ofFn ..
  rw [LoadVector.sum, hfoldl, hempty, zero_add]

theorem negative?_eq_none_iff {v : LoadVector ℝ} : v.negative? = none ↔ ∀ r, 0 ≤ v.get r := by
  rw [LoadVector.negative?, List.find?_eq_none]
  simp [Resource.mem_all]

end Exact

end ClusterBalance
