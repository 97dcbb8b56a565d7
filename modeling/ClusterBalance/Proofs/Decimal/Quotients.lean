import ClusterBalance.Proofs.Decimal.Products

/-! Quotients and roots of doubles. Main statements: a quotient is rounded as a sum is, and so is a
root, if only up to a factor of two; and what is divided by a count or drawn a root of is finite
exactly if it was before. -/

namespace ClusterBalance.Decimal

open Float.Model Float.Model.UnpackedFloat

variable {x y : Float} {u v : UnpackedFloat} {q : ℚ}

section Quotient

variable {m n : Nat} {e f : Int}

/-- A quotient lies where its whole part says and what is left of the division. -/
theorem lies_quotient (m : Nat) (hn : 0 < n) :
    Lies (.ofMantissaAndAccuracy (m / n) (accuracyOfFraction (m % n) n)) (m / n) := by
  have hdiv : ((m / n : ℕ) : ℚ) * n + (m % n : ℕ) = m := by exact_mod_cast Nat.div_add_mod' m n
  have hpos : (0 : ℚ) < n := by exact_mod_cast hn
  have hlt : ((m % n : ℕ) : ℚ) < n := by exact_mod_cast Nat.mod_lt m hn
  unfold accuracyOfFraction
  split
  next hexact =>
    rw [hexact, Nat.cast_zero, add_zero] at hdiv
    exact (div_eq_iff hpos.ne').mpr hdiv.symm
  next hrest =>
    have hrest' : (0 : ℚ) < (m % n : ℕ) := by exact_mod_cast Nat.pos_of_ne_zero hrest
    rcases lt_trichotomy (2 * (m % n)) n with h | h | h
    · have hhalf : 2 * ((m % n : ℕ) : ℚ) < n := by exact_mod_cast h
      rw [compare_lt_iff_lt.mpr h]
      change ((m / n : ℕ) : ℚ) < m / n ∧ (m : ℚ) / n < (m / n : ℕ) + 1 / 2
      rw [lt_div_iff₀ hpos, div_lt_iff₀ hpos]
      constructor <;> linarith
    · have hhalf : 2 * ((m % n : ℕ) : ℚ) = n := by exact_mod_cast h
      rw [compare_eq_iff_eq.mpr h]
      change (m : ℚ) / n = (m / n : ℕ) + 1 / 2
      rw [div_eq_iff hpos.ne']
      linarith
    · have hhalf : (n : ℚ) < 2 * ((m % n : ℕ) : ℚ) := by exact_mod_cast h
      rw [compare_gt_iff_gt.mpr h]
      change ((m / n : ℕ) : ℚ) + 1 / 2 < m / n ∧ (m : ℚ) / n < (m / n : ℕ) + 1
      rw [lt_div_iff₀ hpos, div_lt_iff₀ hpos]
      constructor <;> linarith

/-- The exponent of a quotient before it is rounded. -/
def quotientExponent (m : Nat) (e : Int) (n : Nat) (f : Int) : Int :=
  min (e - f) (Format.binary64.targetExponent (totalExponent m e - totalExponent n f))

theorem divCore_eq (m : Nat) (e : Int) (n : Nat) (f : Int) :
    divCore .binary64 m e n f =
      (m * 2 ^ (e - f - quotientExponent m e n f).toNat / n, quotientExponent m e n f,
        accuracyOfFraction (m * 2 ^ (e - f - quotientExponent m e n f).toNat % n) n) := by
  unfold divCore
  simp only [Nat.shiftLeft_eq]
  rfl

/-- A quotient has enough bits to be rounded. -/
theorem quotientExponent_le (hm : 0 < m) (hn : 0 < n) :
    quotientExponent m e n f ≤ roundingExponent
      (m * 2 ^ (e - f - quotientExponent m e n f).toNat / n) (quotientExponent m e n f) := by
  have htarget : quotientExponent m e n f ≤
      max ((m.log2 + 1 + e - (n.log2 + 1 + f)) - 53) leastExponent := min_le_right _ _
  have hle : quotientExponent m e n f ≤ e - f := min_le_left _ _
  generalize quotientExponent m e n f = t at *
  rw [roundingExponent_eq, le_max_iff]
  rcases le_max_iff.mp htarget with h | h
  · left
    obtain ⟨k, hk⟩ : ∃ k, k = (e - f - t).toNat := ⟨_, rfl⟩
    rw [← hk]
    have hbits : n.log2 + 1 + 52 ≤ m.log2 + k := by omega
    have hlong : 2 ^ 52 ≤ m * 2 ^ k / n := by
      refine (Nat.le_div_iff_mul_le hn).mpr ?_
      calc 2 ^ 52 * n ≤ 2 ^ 52 * 2 ^ (n.log2 + 1) :=
            Nat.mul_le_mul_left _ (Nat.le_of_lt Nat.lt_log2_self)
        _ = 2 ^ (n.log2 + 1 + 52) := by rw [← Nat.pow_add, Nat.add_comm]
        _ ≤ 2 ^ (m.log2 + k) := Nat.pow_le_pow_right Nat.two_pos hbits
        _ = 2 ^ m.log2 * 2 ^ k := Nat.pow_add ..
        _ ≤ m * 2 ^ k := Nat.mul_le_mul_right _ (Nat.log2_self_le (Nat.ne_of_gt hm))
    have hlog : 52 ≤ (m * 2 ^ k / n).log2 :=
      (Nat.le_log2 (Nat.ne_of_gt (Nat.lt_of_lt_of_le (by decide) hlong))).mpr hlong
    omega
  · exact .inr h

theorem roundsTo_div (hu : IsRounded u) (hv : IsRounded v) (hzero : ∀ s, v ≠ .zero s) :
    RoundsTo (amount u / amount v) (UnpackedFloat.div .binary64 u v) := by
  cases hv with
  | zero s => exact absurd rfl (hzero s)
  | @finite s' n f hn h' =>
    cases hu with
    | zero s =>
      rw [show amount (.zero s) = 0 from rfl, zero_div]
      exact .self (.zero _)
    | @finite s m e hm h =>
      have hle := @quotientExponent_le m n e f hm hn
      have hmin : quotientExponent m e n f ≤ e - f := min_le_left _ _
      obtain ⟨k, hk⟩ : ∃ k : ℕ, k = (e - f - quotientExponent m e n f).toNat := ⟨_, rfl⟩
      have hdiv : UnpackedFloat.div .binary64 (.finite s m e hm) (.finite s' n f hn) =
          roundWithAccuracy .binary64 (s / s') (m * 2 ^ k / n) (quotientExponent m e n f)
            (accuracyOfFraction (m * 2 ^ k % n) n) := by
        rw [UnpackedFloat.div, divCore_eq, hk]
      rw [← hk] at hle
      generalize quotientExponent m e n f = t at *
      have hquotient : amount (.finite s m e hm) / amount (.finite s' n f hn) =
          (s / s').apply 1 * ((m * 2 ^ k : ℕ) / n * 2 ^ t) := by
        have hsign : (((s / s').apply 1 : ℤ) : ℚ) = s.apply 1 / s'.apply 1 := by
          cases s <;> cases s' <;> simp [Sign.apply] <;> rfl
        have hpow : (2 : ℚ) ^ e / 2 ^ f = 2 ^ k * 2 ^ t := by
          rw [← zpow_sub₀ two_ne_zero, ← zpow_natCast, ← zpow_add₀ two_ne_zero]
          congr 1
          omega
        rw [amount, amount, apply_mul, apply_mul s' n, hsign, mul_div_mul_comm, mul_div_mul_comm,
          hpow]
        push_cast
        ring
      rw [hquotient, hdiv]
      exact roundsTo_roundWithAccuracy (lies_quotient _ hn) hle _

end Quotient

section Root

variable {m : Nat} {e : Int}

/-- How exact the whole part of a root is. -/
def rootAccuracy (m : Nat) : Accuracy :=
  if m - m.sqrt * m.sqrt = 0 then .exact
  else .inexact (if m - m.sqrt * m.sqrt ≤ m.sqrt then .lt else .gt)

/-- Where the whole part of a root says lies a number that is less than twice the root. -/
theorem exists_lies_root (m : Nat) :
    ∃ x : ℚ, Lies (.ofMantissaAndAccuracy m.sqrt (rootAccuracy m)) x ∧ 0 ≤ x ∧ x * x ≤ 4 * m := by
  have hle : (m.sqrt : ℚ) * m.sqrt ≤ m := by exact_mod_cast Nat.sqrt_le m
  have hnonneg : (0 : ℚ) ≤ m.sqrt := m.sqrt.cast_nonneg
  unfold rootAccuracy
  split
  next => exact ⟨m.sqrt, rfl, hnonneg, by linarith [(m.cast_nonneg : (0 : ℚ) ≤ m)]⟩
  next hrest =>
    have hpos : (1 : ℚ) ≤ m.sqrt := by
      have hm : 0 < m := Nat.pos_of_ne_zero (by rintro rfl; exact hrest rfl)
      exact_mod_cast Nat.sqrt_pos.mpr hm
    -- both quarters between whole numbers are below twice the whole part
    have hsquare {x : ℚ} (hx : 0 ≤ x) (hdouble : x ≤ 2 * m.sqrt) : x * x ≤ 4 * m := by
      calc x * x ≤ 2 * m.sqrt * (2 * m.sqrt) := mul_le_mul hdouble hdouble hx (by linarith)
        _ = 4 * (m.sqrt * m.sqrt) := by ring
        _ ≤ 4 * m := by linarith
    split
    next =>
      refine ⟨m.sqrt + 1 / 4, ⟨?_, ?_⟩, by linarith, hsquare (by linarith) (by linarith)⟩
      · change (m.sqrt : ℚ) < m.sqrt + 1 / 4
        linarith
      · change (m.sqrt : ℚ) + 1 / 4 < m.sqrt + 1 / 2
        linarith
    next =>
      refine ⟨m.sqrt + 3 / 4, ⟨?_, ?_⟩, by linarith, hsquare (by linarith) (by linarith)⟩
      · change (m.sqrt : ℚ) + 1 / 2 < m.sqrt + 3 / 4
        linarith
      · change (m.sqrt : ℚ) + 3 / 4 < m.sqrt + 1
        linarith

/-- The exponent of a root before it is rounded. -/
def rootExponent (m : Nat) (e : Int) : Int :=
  min (e / 2) (Format.binary64.targetExponent ((totalExponent m e + 1) / 2))

theorem sqrtCore_eq (m : Nat) (e : Int) :
    sqrtCore .binary64 m e =
      ((m * 2 ^ (e - 2 * rootExponent m e).toNat).sqrt, rootExponent m e,
        rootAccuracy (m * 2 ^ (e - 2 * rootExponent m e).toNat)) := by
  unfold sqrtCore
  simp only [Nat.shiftLeft_eq]
  rfl

/-- A root has enough bits to be rounded. -/
theorem rootExponent_le (hm : 0 < m) :
    rootExponent m e ≤
      roundingExponent (m * 2 ^ (e - 2 * rootExponent m e).toNat).sqrt (rootExponent m e) := by
  have htarget : rootExponent m e ≤ max ((m.log2 + 1 + e + 1) / 2 - 53) leastExponent :=
    min_le_right _ _
  have hle : rootExponent m e ≤ e / 2 := min_le_left _ _
  generalize rootExponent m e = t at *
  rw [roundingExponent_eq, le_max_iff]
  rcases le_max_iff.mp htarget with h | h
  · left
    obtain ⟨k, hk⟩ : ∃ k, k = (e - 2 * t).toNat := ⟨_, rfl⟩
    rw [← hk]
    have hbits : 104 ≤ m.log2 + k := by omega
    have hlong : 2 ^ 52 ≤ (m * 2 ^ k).sqrt := by
      refine Nat.le_sqrt.mpr ?_
      calc 2 ^ 52 * 2 ^ 52 = 2 ^ 104 := by rw [← Nat.pow_add]
        _ ≤ 2 ^ (m.log2 + k) := Nat.pow_le_pow_right Nat.two_pos hbits
        _ = 2 ^ m.log2 * 2 ^ k := Nat.pow_add ..
        _ ≤ m * 2 ^ k := Nat.mul_le_mul_right _ (Nat.log2_self_le (Nat.ne_of_gt hm))
    have hlog : 52 ≤ (m * 2 ^ k).sqrt.log2 :=
      (Nat.le_log2 (Nat.ne_of_gt (Nat.lt_of_lt_of_le (by decide) hlong))).mpr hlong
    omega
  · exact .inr h

/-- A root is rounded, if only up to a factor of two. -/
theorem exists_roundsTo_sqrt (hu : IsRounded u) (hpos : 0 ≤ amount u) :
    ∃ q, 0 ≤ q ∧ q * q ≤ 4 * amount u ∧ RoundsTo q (UnpackedFloat.sqrt .binary64 u) := by
  cases hu with
  | zero s => exact ⟨0, le_rfl, by simp [amount], .self (.zero s)⟩
  | @finite s m e hm h =>
    cases s with
    | negative => exact absurd hpos (not_le.mpr amount_neg)
    | positive =>
      obtain ⟨k, hk⟩ : ∃ k : ℕ, k = (e - 2 * rootExponent m e).toNat := ⟨_, rfl⟩
      have hmin : rootExponent m e ≤ e / 2 := min_le_left _ _
      have hle := @rootExponent_le m e hm
      have hsqrt : UnpackedFloat.sqrt .binary64 (.finite .positive m e hm) =
          roundWithAccuracy .binary64 .positive (m * 2 ^ k).sqrt (rootExponent m e)
            (rootAccuracy (m * 2 ^ k)) := by
        rw [UnpackedFloat.sqrt, sqrtCore_eq, hk]
      rw [← hk] at hle
      generalize rootExponent m e = t at *
      obtain ⟨x, hlies, hx, hsquare⟩ := exists_lies_root (m * 2 ^ k)
      have hrounds := roundsTo_roundWithAccuracy hlies hle .positive
      rw [show ((Sign.positive.apply 1 : ℤ) : ℚ) = 1 from Int.cast_one, one_mul, ← hsqrt] at hrounds
      refine ⟨x * 2 ^ t, by positivity, ?_, hrounds⟩
      have hpow : (2 : ℚ) ^ e = 2 ^ k * (2 ^ t * 2 ^ t) := by
        rw [← zpow_natCast, ← zpow_add₀ two_ne_zero, ← zpow_add₀ two_ne_zero]
        congr 1
        omega
      calc x * 2 ^ t * (x * 2 ^ t) = x * x * (2 ^ t * 2 ^ t) := by ring
        _ ≤ 4 * (m * 2 ^ k : ℕ) * (2 ^ t * 2 ^ t) := by gcongr
        _ = 4 * (m * 2 ^ e) := by
          rw [hpow]
          push_cast
          ring

end Root

section Finite

/-- What is rounded from a number whose distance from zero is not above a finite double is finite,
and its distance is not above that double either. -/
theorem isFinite_pack (h : RoundsTo q u) (hx : x.isFinite = true) (hle : |q| ≤ value x) :
    (Float.ofModel (Float.Model.pack u)).isFinite = true ∧
      |value (.ofModel (Float.Model.pack u))| ≤ value x := by
  obtain ⟨hlow, hhigh⟩ := abs_le.mp hle
  have hgrid := onGrid_value hx
  have hamount : |amount u| ≤ value x :=
    abs_le.mpr ⟨h.nearest.le_of_le hgrid.neg hlow, h.nearest.ge_of_ge hgrid hhigh⟩
  change (Float.Model.pack u).unpack.isFinite = true ∧ |amount (Float.Model.pack u).unpack| ≤ _
  obtain ⟨hrounded, -⟩ := h
  cases hrounded with
  | zero s =>
    rw [unpack_pack_zero]
    exact ⟨rfl, hamount⟩
  | @finite s m e hm h =>
    have hsign : amount (.finite .positive m e hm) = |amount (.finite s m e hm)| :=
      amount_abs (.finite s m e hm)
    by_cases he : e ≤ greatestExponent
    · rw [unpack_pack_finite h he]
      exact ⟨rfl, hamount⟩
    · rw [← hsign] at hamount
      exact absurd hamount (not_le.mpr (value_lt_amount hx h (not_le.mp he)))

theorem isSpecial_div (h : IsSpecial u) (hv : ¬IsSpecial v) :
    IsSpecial (UnpackedFloat.div .binary64 u v) := by
  rcases h with ⟨s⟩ | _
  · rcases v with s' | _ | s' | _
    · exact absurd (.infinity s') hv
    · exact absurd .notANumber hv
    · exact .infinity _
    · exact .infinity _
  · exact .notANumber

theorem not_isSpecial_of_isFinite (h : x.isFinite = true) : ¬IsSpecial x.toModel.unpack := by
  intro hspecial
  have hrounded := isRounded_of_isFinite h
  generalize x.toModel.unpack = u at *
  cases hrounded <;> cases hspecial

theorem isFinite_ofModel_pack (h : IsSpecial u) :
    (Float.ofModel (Float.Model.pack u)).isFinite = false := by
  change (Float.Model.pack u).unpack.isFinite = false
  rw [unpack_pack_of_isSpecial h]
  cases h <;> rfl

theorem ne_zero_of_one_le (h : 1 ≤ value y) (s : Sign) : y.toModel.unpack ≠ .zero s := by
  intro hzero
  rw [value, hzero] at h
  exact absurd h (by norm_num [amount])

/-- What is divided by a number that is not below one is finite exactly if it was before. -/
theorem isFinite_div (hy : y.isFinite = true) (hone : 1 ≤ value y) :
    (x / y).isFinite = x.isFinite := by
  cases hx : x.isFinite with
  | false =>
    exact isFinite_ofModel_pack
      (isSpecial_div (isSpecial_of_isFinite hx) (not_isSpecial_of_isFinite hy))
  | true =>
    have hrounds := roundsTo_div (isRounded_of_isFinite hx) (isRounded_of_isFinite hy)
      (ne_zero_of_one_le hone)
    have hle : |value x / value y| ≤ value x.abs := by
      rw [value_abs hx, abs_div]
      exact div_le_self (abs_nonneg _) (hone.trans (le_abs_self _))
    exact (isFinite_pack hrounds (isFinite_abs hx) hle).1

/-- The powers of two up to the greatest exponent have doubles. -/
theorem exists_value_eq_two_pow {k : Nat} (hk : k ≤ 1023) :
    ∃ y : Float, y.isFinite = true ∧ value y = 2 ^ k := by
  have hunpack : (Float.Model.pack (.finite .positive hiddenBit (k - 52) (by decide))).unpack =
      .finite .positive hiddenBit (k - 52) (by decide) := by
    refine unpack_pack_finite ⟨by decide, ?_, .inr le_rfl⟩ ?_
    · unfold leastExponent
      omega
    · unfold greatestExponent
      omega
  refine ⟨.ofModel (Float.Model.pack (.finite .positive hiddenBit (k - 52) (by decide))), ?_, ?_⟩
  · change (Float.Model.pack _).unpack.isFinite = true
    rw [hunpack]
    rfl
  · change amount (Float.Model.pack _).unpack = _
    rw [hunpack]
    change ((hiddenBit : ℕ) : ℚ) * 2 ^ ((k : Int) - 52) = 2 ^ k
    rw [hiddenBit_eq, ← zpow_add₀ two_ne_zero, ← zpow_natCast]
    congr 1
    omega

/-- A root is finite exactly if what it is drawn of is. -/
theorem isFinite_sqrt (hnonneg : NotNegative x) : x.sqrt.isFinite = x.isFinite := by
  cases hx : x.isFinite with
  | false =>
    have hspecial : IsSpecial (UnpackedFloat.sqrt .binary64 x.toModel.unpack) := by
      have hx := isSpecial_of_isFinite hx
      generalize x.toModel.unpack = u at hx
      rcases hx with ⟨_ | _⟩ | _
      · exact .notANumber
      · exact .infinity _
      · exact .notANumber
    exact isFinite_ofModel_pack hspecial
  | true =>
    obtain ⟨q, hq, hsquare, hrounds⟩ := exists_roundsTo_sqrt (isRounded_of_isFinite hx)
      ((notNegative_iff_value hx).mp hnonneg)
    change q * q ≤ 4 * value x at hsquare
    -- a root is above what it is drawn of only if both are small
    rcases le_total (value x) 4 with hsmall | hlarge
    · obtain ⟨y, hy, hvalue⟩ := exists_value_eq_two_pow (k := 2) (by decide)
      refine (isFinite_pack hrounds hy ?_).1
      rw [hvalue, abs_of_nonneg hq]
      nlinarith only [hsquare, hsmall, hq]
    · refine (isFinite_pack hrounds hx ?_).1
      rw [abs_of_nonneg hq]
      nlinarith only [hsquare, hlarge, hq]

end Finite

end ClusterBalance.Decimal
