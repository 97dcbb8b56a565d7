import Mathlib.Analysis.SpecialFunctions.Sqrt
import Mathlib.Order.UpperLower.Basic
import ClusterBalance.Proofs.Exact.Scalar
import ClusterBalance.Statistics.Band

/-! The band of balanced fractions over the reals. Main statement: a band has no gaps, whatever its
bounds are, and where nothing is below zero its tolerance widens it to a closed range. -/

namespace ClusterBalance

namespace Exact

variable {tolerance a b bound fraction : ℝ}

/-- Numbers are near each other if their distance is within the tolerance of the greater size. -/
theorem near_iff (htolerance : 0 ≤ tolerance) :
    Scalar.near tolerance a b = true ↔ |a - b| ≤ tolerance * max |a| |b| := by
  have hfinite (x : ℝ) : Scalar.isInfinite x = false := rfl
  have habs (x : ℝ) : Scalar.abs x = |x| := rfl
  have hsame : Scalar.same a b = true ↔ a = b := by
    rw [Scalar.same, Bool.and_eq_true, decide_eq_true_iff, decide_eq_true_iff]
    exact antisymm_iff
  simp only [Scalar.near, hfinite, habs, Bool.or_eq_true, hsame, Bool.not_false, Bool.true_and,
    decide_eq_true_iff, abs_mul, abs_of_nonneg htolerance, abs_sub_comm b a,
    mul_max_of_nonneg _ _ htolerance, le_max_iff]
  constructor
  · rintro (rfl | h | h)
    · left
      rw [sub_self, abs_zero]
      exact mul_nonneg htolerance (abs_nonneg a)
    · exact .inr h
    · exact .inl h
  · exact fun h => .inr h.symm

/-- A fraction is on or above a bound, up to rounding. -/
def IsAbove (tolerance bound fraction : ℝ) : Prop :=
  bound ≤ fraction ∨ Scalar.near tolerance fraction bound = true

/-- A fraction is on or below a bound, up to rounding. -/
def IsBelow (tolerance bound fraction : ℝ) : Prop :=
  fraction ≤ bound ∨ Scalar.near tolerance fraction bound = true

theorem containsWithin_iff {band : Band ℝ} :
    band.containsWithin tolerance fraction = true ↔
      IsAbove tolerance band.lower fraction ∧ IsBelow tolerance band.upper fraction := by
  simp only [Band.containsWithin, Bool.and_eq_true, Bool.or_eq_true, decide_eq_true_iff]
  rfl

section Gaps

/-- To be below a bound is to be above it on the other side of zero. -/
theorem isBelow_iff_isAbove_neg (htolerance : 0 ≤ tolerance) :
    IsBelow tolerance bound fraction ↔ IsAbove tolerance (-bound) (-fraction) := by
  have hdistance : |-fraction - -bound| = |fraction - bound| := by
    rw [neg_sub_neg, abs_sub_comm]
  rw [IsBelow, IsAbove, near_iff htolerance, near_iff htolerance, hdistance, abs_neg, abs_neg,
    neg_le_neg_iff]

/-- What is above a fraction that is above a bound is above it too. The tolerance may come from the
size of the fraction only below zero, and there it shrinks slower than the fraction rises. -/
theorem IsAbove.mono (htolerance : 0 ≤ tolerance) (htolerance' : tolerance ≤ 1)
    (h : IsAbove tolerance bound a) (hle : a ≤ b) : IsAbove tolerance bound b := by
  rcases le_or_gt bound b with hb | hb
  · exact .inl hb
  right
  have hnear : bound - a ≤ tolerance * max |a| |bound| := by
    rcases h with h | h
    · exact absurd (h.trans hle) (not_le.mpr hb)
    · rwa [near_iff htolerance, abs_sub_comm, abs_of_pos (sub_pos.mpr (hle.trans_lt hb))] at h
  rw [near_iff htolerance, abs_sub_comm, abs_of_pos (sub_pos.mpr hb)]
  rcases le_or_gt |a| |bound| with hsize | hsize
  · rw [max_eq_right hsize] at hnear
    calc bound - b ≤ bound - a := sub_le_sub_left hle bound
      _ ≤ tolerance * |bound| := hnear
      _ ≤ tolerance * max |b| |bound| := by gcongr; exact le_max_right ..
  · rw [max_eq_left hsize.le] at hnear
    have ha : a < 0 := by
      by_contra hpos
      rw [abs_of_nonneg (not_lt.mp hpos)] at hsize
      exact absurd (hle.trans_lt hb) (not_lt.mpr ((le_abs_self bound).trans hsize.le))
    rw [abs_of_neg ha] at hnear
    have hbound : bound ≤ (1 - tolerance) * b := by
      calc bound ≤ (1 - tolerance) * a := by linarith
        _ ≤ (1 - tolerance) * b := mul_le_mul_of_nonneg_left hle (sub_nonneg.mpr htolerance')
    calc bound - b ≤ tolerance * -b := by linarith
      _ ≤ tolerance * max |b| |bound| := by
        gcongr
        exact (neg_le_abs b).trans (le_max_left ..)

theorem isUpperSet_isAbove (htolerance : 0 ≤ tolerance) (htolerance' : tolerance ≤ 1)
    (bound : ℝ) : IsUpperSet {fraction | IsAbove tolerance bound fraction} :=
  fun _ _ hle h => h.mono htolerance htolerance' hle

theorem isLowerSet_isBelow (htolerance : 0 ≤ tolerance) (htolerance' : tolerance ≤ 1)
    (bound : ℝ) : IsLowerSet {fraction | IsBelow tolerance bound fraction} := by
  intro a b hle (h : IsBelow tolerance bound a)
  show IsBelow tolerance bound b
  rw [isBelow_iff_isAbove_neg htolerance] at h ⊢
  exact h.mono htolerance htolerance' (neg_le_neg hle)

end Gaps

section Range

/-- At and above zero the tolerance below a bound is taken from the bound. -/
theorem isAbove_iff (htolerance : 0 ≤ tolerance) (hbound : 0 ≤ bound) (hfraction : 0 ≤ fraction) :
    IsAbove tolerance bound fraction ↔ (1 - tolerance) * bound ≤ fraction := by
  rcases le_or_gt bound fraction with h | h
  · refine iff_of_true (.inl h) ?_
    linarith [mul_nonneg htolerance hbound]
  · rw [IsAbove, or_iff_right (not_le.mpr h), near_iff htolerance, abs_of_nonneg hfraction,
      abs_of_nonneg hbound, max_eq_right h.le, abs_sub_comm, abs_of_pos (sub_pos.mpr h)]
    constructor <;> intro h <;> linarith

/-- At and above zero the tolerance above a bound is taken from the fraction. -/
theorem isBelow_iff (htolerance : 0 ≤ tolerance) (hbound : 0 ≤ bound) (hfraction : 0 ≤ fraction) :
    IsBelow tolerance bound fraction ↔ (1 - tolerance) * fraction ≤ bound := by
  rcases le_or_gt fraction bound with h | h
  · refine iff_of_true (.inl h) ?_
    linarith [mul_nonneg htolerance hfraction]
  · rw [IsBelow, or_iff_right (not_le.mpr h), near_iff htolerance, abs_of_nonneg hfraction,
      abs_of_nonneg hbound, max_eq_left h.le, abs_of_pos (sub_pos.mpr h)]
    constructor <;> intro h <;> linarith

theorem containsWithin_iff_range {band : Band ℝ} (htolerance : 0 ≤ tolerance)
    (hlower : 0 ≤ band.lower) (hupper : 0 ≤ band.upper) (hfraction : 0 ≤ fraction) :
    band.containsWithin tolerance fraction = true ↔
      (1 - tolerance) * band.lower ≤ fraction ∧ (1 - tolerance) * fraction ≤ band.upper := by
  rw [containsWithin_iff, isAbove_iff htolerance hlower hfraction,
    isBelow_iff htolerance hupper hfraction]

end Range

end Exact

namespace Band

/-- The fractions that a band contains have no gaps and include all between its bounds. Where
neither the bounds nor the fractions are below zero, they are those from the lower bound less its
tolerance to where a fraction less its tolerance is the upper bound. -/
theorem containsWithin_window {tolerance : ℝ} (hpos : 0 < tolerance) (hlt : tolerance < 1)
    (band : Band ℝ) :
    (∀ a b : ℝ, Scalar.near tolerance a b = true ↔ |a - b| ≤ tolerance * max |a| |b|) ∧
      Set.OrdConnected {fraction | band.containsWithin tolerance fraction = true} ∧
      Set.Icc band.lower band.upper ⊆ {fraction | band.containsWithin tolerance fraction = true} ∧
      (0 ≤ band.lower → 0 ≤ band.upper → ∀ fraction, 0 ≤ fraction →
        (band.containsWithin tolerance fraction = true ↔
          (1 - tolerance) * band.lower ≤ fraction ∧
            (1 - tolerance) * fraction ≤ band.upper)) := by
  refine ⟨fun _ _ => Exact.near_iff hpos.le, ?_, ?_, fun hlower hupper fraction =>
    Exact.containsWithin_iff_range hpos.le hlower hupper⟩
  · simp only [Exact.containsWithin_iff]
    exact (Exact.isUpperSet_isAbove hpos.le hlt.le band.lower).ordConnected.inter
      (Exact.isLowerSet_isBelow hpos.le hlt.le band.upper).ordConnected
  · rintro fraction ⟨hlower, hupper⟩
    exact Exact.containsWithin_iff.mpr ⟨.inl hlower, .inl hupper⟩

/-- Bounds in the wrong order, nearer to each other than the tolerance of the program. -/
noncomputable def crossed : Band ℝ := ⟨1, 1 - 1 / 2000000000⟩

/-- A band with crossed bounds contains what is near both, and nothing else. -/
theorem containsWithin_window_crossed :
    (0 : ℝ) < Scalar.tolerance ∧ (Scalar.tolerance : ℝ) < 1 ∧
      Set.OrdConnected {fraction | crossed.contains fraction = true} ∧
      crossed.contains 1 = true ∧ crossed.contains 2 = false := by
  have htolerance : (Scalar.tolerance : ℝ) = 1 / 1000000000 := rfl
  have hpos : (0 : ℝ) < Scalar.tolerance := by rw [htolerance]; norm_num
  have hlt : (Scalar.tolerance : ℝ) < 1 := by rw [htolerance]; norm_num
  obtain ⟨-, hconnected, -, hrange⟩ := containsWithin_window hpos hlt crossed
  have hlower : 0 ≤ crossed.lower := by norm_num [crossed]
  have hupper : 0 ≤ crossed.upper := by norm_num [crossed]
  refine ⟨hpos, hlt, hconnected, (hrange hlower hupper 1 (by norm_num)).mpr ?_, ?_⟩
  · norm_num [crossed, htolerance]
  · refine Bool.eq_false_iff.mpr fun h => ?_
    have htwo := ((hrange hlower hupper 2 (by norm_num)).mp h).2
    norm_num [crossed, htolerance] at htwo

end Band

end ClusterBalance
