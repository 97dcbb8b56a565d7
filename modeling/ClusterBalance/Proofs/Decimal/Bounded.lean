import ClusterBalance.Proofs.Decimal.Quotients
import ClusterBalance.Proofs.Decimal.Whole
import ClusterBalance.Scalar

/-! Doubles that are bounded by a power of two. Main statement: a sum of such doubles is bounded
however many there are, because what is added to a sum that is large enough is rounded off. -/

namespace ClusterBalance.Decimal

open Float.Model Float.Model.UnpackedFloat

variable {x y s : Float} {u : UnpackedFloat} {q : ℚ} {k : Nat}

/-- A finite double from zero up to a power of two. -/
structure UpTo (k : Nat) (x : Float) : Prop where
  finite : x.isFinite = true
  nonneg : 0 ≤ value x
  le : value x ≤ 2 ^ k

theorem upTo_zero : UpTo k 0.0 := by
  refine ⟨isFinite_zero, ?_, ?_⟩ <;> rw [value_zero]
  positivity

theorem onGrid_two_pow : OnGrid (2 ^ k) :=
  ⟨1, k, by rw [Int.cast_one, one_mul, zpow_natCast], by decide, by unfold leastExponent; omega⟩

/-- What is rounded from a number up to a power of two is bounded by it. -/
theorem isFinite_pack_two_pow (h : RoundsTo q u) (hle : |q| ≤ 2 ^ k) (hk : k ≤ 1023) :
    (Float.ofModel (Float.Model.pack u)).isFinite = true ∧
      |value (.ofModel (Float.Model.pack u))| ≤ 2 ^ k := by
  obtain ⟨y, hy, hvalue⟩ := exists_value_eq_two_pow hk
  rw [← hvalue] at hle ⊢
  exact isFinite_pack h hy hle

theorem upTo_pack (h : RoundsTo q u) (hq : 0 ≤ q) (hle : q ≤ 2 ^ k) (hk : k ≤ 1023) :
    UpTo k (.ofModel (Float.Model.pack u)) := by
  obtain ⟨hfinite, hbound⟩ := isFinite_pack_two_pow h (by rwa [abs_of_nonneg hq]) hk
  have hnearest := (rounds_pack h).nearest hfinite
  exact ⟨hfinite, hnearest.le_of_le .zero hq, (abs_le.mp hbound).2⟩

section Sum

/-- A significand of 53 bits is above a power of two only if it counts in units that are not too
small. -/
theorem le_of_two_pow_lt {n e : ℤ} (hn : n.natAbs < 2 * hiddenBit)
    (hlt : (2 : ℚ) ^ (k + 54) < n * 2 ^ e) : ((k + 2 : ℕ) : ℤ) ≤ e := by
  by_contra hless
  have hle : (n : ℚ) ≤ 2 ^ 53 := by exact_mod_cast (show n ≤ (2 * hiddenBit : ℕ) by omega)
  have hpow : (2 : ℚ) ^ e ≤ 2 ^ (k + 1) := by
    rw [← zpow_natCast]
    exact zpow_le_zpow_right₀ one_le_two (by omega)
  have hsmall : (n : ℚ) * 2 ^ e ≤ 2 ^ (k + 54) := by
    calc (n : ℚ) * 2 ^ e ≤ 2 ^ 53 * 2 ^ (k + 1) := by gcongr
      _ = 2 ^ (k + 54) := by ring
  exact absurd hlt (not_lt.mpr hsmall)

/-- Multiples of a unit differ by a unit at least. -/
theorem add_unit_le {a b : ℤ} {unit : ℚ} (hpos : 0 < unit) (hlt : a * unit < b * unit) :
    a * unit + unit ≤ b * unit := by
  have hless : (a : ℚ) < b := lt_of_mul_lt_mul_right hlt hpos.le
  have hle : (a : ℚ) + 1 ≤ b := by exact_mod_cast hless
  calc a * unit + unit = (a + 1) * unit := by ring
    _ ≤ b * unit := mul_le_mul_of_nonneg_right hle hpos.le

/-- A number of the grid above a power of two is a step above it. -/
theorem OnGrid.step_le {r : ℚ} (h : OnGrid r) (hlt : 2 ^ (k + 54) < r) :
    2 ^ (k + 54) + 4 * 2 ^ k ≤ r := by
  obtain ⟨n, e, rfl, hn, he⟩ := h
  have hunit : (2 : ℚ) ^ ((k + 2 : ℕ) : ℤ) = 4 * 2 ^ k := by
    rw [zpow_natCast]
    ring
  have hpower : (2 : ℚ) ^ (k + 54) = (hiddenBit : ℤ) * (4 * 2 ^ k) := by
    rw [Int.cast_natCast, hiddenBit_eq]
    ring
  have hmultiple := OnGrid.eq_mul_zpow (n := n) (le_of_two_pow_lt hn hlt)
  rw [hunit] at hmultiple
  rw [hmultiple, hpower] at hlt ⊢
  exact add_unit_le (by positivity) hlt

/-- What is added to a sum that is large enough is rounded off. -/
theorem UpTo.add (hs : UpTo (k + 54) s) (hx : UpTo k x) (hk : k + 55 ≤ 1023) :
    UpTo (k + 54) (s + x) := by
  have hrounds := roundsTo_add (isRounded_of_isFinite hs.finite) (isRounded_of_isFinite hx.finite)
  change RoundsTo (value s + value x) _ at hrounds
  have hle : (2 : ℚ) ^ k ≤ 2 ^ (k + 54) := pow_le_pow_right₀ one_le_two (by omega)
  have hdouble : (2 : ℚ) ^ (k + 55) = 2 ^ (k + 54) + 2 ^ (k + 54) := by
    rw [pow_succ]
    ring
  have hsum : UpTo (k + 55) (s + x) :=
    upTo_pack hrounds (add_nonneg hs.nonneg hx.nonneg) (by linarith [hs.le, hx.le]) hk
  refine ⟨hsum.finite, hsum.nonneg, ?_⟩
  have hnearest := (rounds_add hs.finite hx.finite).nearest hsum.finite
  rcases le_total (value s + value x) (2 ^ (k + 54)) with hsmall | hlarge
  · exact hnearest.ge_of_ge onGrid_two_pow hsmall
  · by_contra hlt
    have hstep := (onGrid_value hsum.finite).step_le (not_le.mp hlt)
    have hnear := hnearest _ (onGrid_two_pow (k := k + 54))
    have hpos : (0 : ℚ) < 2 ^ k := by positivity
    rw [abs_of_nonneg (by linarith [hs.le, hx.le]), abs_of_nonpos (by linarith)] at hnear
    linarith [hs.le, hx.le]

theorem upTo_sum {xs : List Float} (h : ∀ x ∈ xs, UpTo k x) (hk : k + 55 ≤ 1023) :
    UpTo (k + 54) (Scalar.sum xs) :=
  List.foldlRecOn xs (· + ·) upTo_zero fun _ hs x hx => hs.add (h x hx) hk

end Sum

section Operations

theorem UpTo.div (h : UpTo k x) (hy : y.isFinite = true) (hone : 1 ≤ value y) (hk : k ≤ 1023) :
    UpTo k (x / y) := by
  have hpos : 0 < value y := by linarith
  refine upTo_pack (roundsTo_div (isRounded_of_isFinite h.finite) (isRounded_of_isFinite hy)
    (ne_zero_of_one_le hone)) (div_nonneg h.nonneg hpos.le) ?_ hk
  exact (div_le_self h.nonneg hone).trans h.le

theorem UpTo.sqrt (h : UpTo (2 * k) x) (hk : k + 1 ≤ 1023) : UpTo (k + 1) x.sqrt := by
  obtain ⟨q, hq, hsquare, hrounds⟩ :=
    exists_roundsTo_sqrt (isRounded_of_isFinite h.finite) h.nonneg
  refine upTo_pack hrounds hq ?_ hk
  have hle : q ^ 2 ≤ (2 ^ (k + 1)) ^ 2 := by
    calc q ^ 2 = q * q := sq q
      _ ≤ 4 * value x := hsquare
      _ ≤ 4 * 2 ^ (2 * k) := by linarith [h.le]
      _ = (2 ^ (k + 1)) ^ 2 := by ring
  exact le_of_sq_le_sq hle (by positivity)

/-- The square of a difference of bounded doubles is bounded by the square of the bound. -/
theorem UpTo.square_sub (hx : UpTo k x) (hy : UpTo k y) (hk : 2 * k ≤ 1023) :
    UpTo (2 * k) ((x - y) * (x - y)) := by
  have hsub := roundsTo_sub (isRounded_of_isFinite hx.finite) (isRounded_of_isFinite hy.finite)
  change RoundsTo (value x - value y) _ at hsub
  have hdistance : |value x - value y| ≤ 2 ^ k :=
    abs_le.mpr ⟨by linarith [hx.nonneg, hy.le], by linarith [hx.le, hy.nonneg]⟩
  obtain ⟨hfinite, hbound⟩ := isFinite_pack_two_pow hsub hdistance (by omega)
  change (x - y).isFinite = true at hfinite
  change |value (x - y)| ≤ 2 ^ k at hbound
  refine upTo_pack (roundsTo_mul (isRounded_of_isFinite hfinite) (isRounded_of_isFinite hfinite))
    (mul_self_nonneg _) ?_ hk
  calc value (x - y) * value (x - y)
      = |value (x - y)| * |value (x - y)| := (abs_mul_abs_self _).symm
    _ ≤ 2 ^ k * 2 ^ k := mul_le_mul hbound hbound (abs_nonneg _) (by positivity)
    _ = 2 ^ (2 * k) := by ring

end Operations

section Whole

variable {num den m n : Nat}

/-- The bits of a quotient below a power of two are not above those of that power. -/
theorem exists_nearest_le (hnum : num ≠ 0) (hden : 0 < den) (hlt : num < 2 ^ k * den) :
    ∃ bits, nearest false num den = ofMagnitude false (min bits infinityBits) ∧
      bits ≤ (k + 1023) * hiddenBit := by
  obtain ⟨hleast, hless, hmore⟩ := unitExponent_bounds (Nat.pos_of_ne_zero hnum) hden
  have hscale := scaleBinary_eq num den (-unitExponent num den)
  have hd := scaleBinary_pos num hden (-unitExponent num den)
  have hnearest : nearest false num den =
      ofMagnitude false (min ((unitExponent num den - leastExponent).toNat * hiddenBit +
        roundDiv (scaleBinary num den (-unitExponent num den)).1
          (scaleBinary num den (-unitExponent num den)).2) infinityBits) := if_neg hnum
  refine ⟨_, hnearest, ?_⟩
  clear hnearest
  generalize unitExponent num den = unit at *
  generalize scaleBinary num den (-unit) = scaled at *
  obtain ⟨n, d⟩ := scaled
  dsimp only at *
  have hpos : (0 : ℚ) < d := by exact_mod_cast hd
  have hround : roundDiv n d ≤ 2 * hiddenBit := by
    refine roundDiv_le hd ?_
    rw [zpow_neg, ← div_eq_mul_inv, eq_div_iff (by positivity)] at hscale
    rw [← hscale, mul_lt_mul_iff_left₀ (by positivity), div_lt_iff₀ hpos] at hless
    exact_mod_cast hless.le
  have hunit : (unit - leastExponent).toNat + 2 ≤ k + 1023 := by
    rcases hmore with rfl | hmore
    · omega
    · have hquotient : (num / den : ℚ) < 2 ^ k := by
        rw [div_lt_iff₀ (by exact_mod_cast hden)]
        exact_mod_cast hlt
      have hpow : (2 : ℚ) ^ (52 + unit) < 2 ^ (k : ℤ) := by
        rw [zpow_add₀ two_ne_zero, ← hiddenBit_eq, zpow_natCast]
        exact hmore.trans_lt hquotient
      have hexponent := (zpow_lt_zpow_iff_right₀ one_lt_two).mp hpow
      unfold leastExponent
      omega
  calc (unit - leastExponent).toNat * hiddenBit + roundDiv n d
      ≤ (unit - leastExponent).toNat * hiddenBit + 2 * hiddenBit := Nat.add_le_add_left hround _
    _ = ((unit - leastExponent).toNat + 2) * hiddenBit := (Nat.add_mul ..).symm
    _ ≤ (k + 1023) * hiddenBit := Nat.mul_le_mul_right _ hunit

theorem mul_two_zpow_le {significand step : Nat} (hpos : 0 < significand)
    (hless : significand < 2 * hiddenBit)
    (hle : step * hiddenBit + significand ≤ (k + 1023) * hiddenBit) :
    (significand : ℚ) * 2 ^ (leastExponent + (step : ℕ)) ≤ 2 ^ k := by
  -- a significand of all its bits has a step less than one that is a power of two
  obtain ⟨n, hn, hstep⟩ : ∃ n : ℕ, significand ≤ 2 ^ n ∧ leastExponent + (step : ℕ) + n ≤ k := by
    rcases Nat.lt_or_ge step (k + 1022) with h | h
    · refine ⟨53, hless.le, ?_⟩
      unfold leastExponent
      omega
    · refine ⟨52, ?_, ?_⟩
      · change significand ≤ hiddenBit
        have hmul := Nat.mul_le_mul_right hiddenBit h
        rw [show k + 1023 = k + 1022 + 1 from rfl, Nat.succ_mul] at hle
        omega
      · have hupper : step ≤ k + 1022 := by
          by_contra hnot
          have hmul := Nat.mul_le_mul_right hiddenBit (show k + 1023 ≤ step by omega)
          omega
        unfold leastExponent
        omega
  calc (significand : ℚ) * 2 ^ (leastExponent + (step : ℕ))
      ≤ 2 ^ n * 2 ^ (leastExponent + (step : ℕ)) := by
        gcongr
        exact_mod_cast hn
    _ = 2 ^ (leastExponent + (step : ℕ) + n) := by
        rw [zpow_add₀ two_ne_zero _ (n : ℤ), zpow_natCast, mul_comm]
    _ ≤ 2 ^ (k : ℤ) := zpow_le_zpow_right₀ one_le_two hstep
    _ = 2 ^ k := zpow_natCast 2 k

/-- A double is at most a power of two if its bits are not above those of that power. -/
theorem upTo_ofMagnitude {bits : Nat} (hle : bits ≤ (k + 1023) * hiddenBit) (hk : k ≤ 1023) :
    UpTo k (ofMagnitude false bits) := by
  have hlt : bits < infinityBits := by
    unfold infinityBits numFields hiddenBit at *
    omega
  have hfinite : (ofMagnitude false bits).isFinite = true := by
    refine isFinite_of_isInf hlt.le ?_
    rw [← Bool.not_eq_true, isInf_ofMagnitude _ hlt.le]
    exact hlt.ne
  have hvalue : value (ofMagnitude false bits) = amount (valueOf false bits) := by
    rw [value, unpack_ofMagnitude _ hlt.le]
  rcases Nat.eq_zero_or_pos bits with rfl | hpos
  · rw [valueOf_zero, show amount (.zero (signOf false)) = 0 from rfl] at hvalue
    refine ⟨hfinite, hvalue.ge, ?_⟩
    rw [hvalue]
    positivity
  · obtain ⟨significand, step, hsignificand, heq, rfl, hless, -⟩ :=
      exists_valueOf_eq_finite false hpos hlt
    rw [heq] at hvalue
    refine ⟨hfinite, ?_, ?_⟩ <;> rw [hvalue]
    · exact amount_pos.le
    · exact mul_two_zpow_le hsignificand hless hle

theorem upTo_nearest (hden : 0 < den) (hlt : num < 2 ^ k * den) (hk : k ≤ 1023) :
    UpTo k (nearest false num den) := by
  by_cases hnum : num = 0
  · rw [hnum]
    exact upTo_ofMagnitude (Nat.zero_le _) hk
  · obtain ⟨bits, hnearest, hle⟩ := exists_nearest_le hnum hden hlt
    rw [hnearest]
    exact upTo_ofMagnitude ((Nat.min_le_left ..).trans hle) hk

/-- A quotient of counts is bounded as its first part is. -/
theorem upTo_ratio (hm : m < 2 ^ k) (hn : 0 < n) (hk : k ≤ 1023) :
    UpTo k (Scalar.ratio (m : Int) (n : Int)) := by
  have hsign : (decide ((m : Int) < 0) != decide ((n : Int) < 0)) = false := by
    rw [decide_eq_false (by omega), decide_eq_false (by omega)]
    rfl
  change UpTo k (nearest _ (m : Int).natAbs (n : Int).natAbs)
  rw [hsign, Int.natAbs_natCast, Int.natAbs_natCast]
  exact upTo_nearest hn (hm.trans_le (Nat.le_mul_of_pos_right _ hn)) hk

theorem upTo_ofNat (hm : m < 2 ^ k) (hk : k ≤ 1023) : UpTo k (Scalar.ofNat m) :=
  upTo_ratio hm Nat.one_pos hk

/-- The double of a positive count is not below one. -/
theorem one_le_value_of_ofWhole? (hn : n ≠ 0) (h : ofWhole? n = some y) : 1 ≤ value y := by
  have hy := nearestRatio_of_ofWhole? h
  obtain ⟨bits, heq, hlow, -⟩ := exists_nearestRatio_eq (n := n) (by omega)
  have hmagnitude : (1.0 : Float) = ofMagnitude false (1023 * hiddenBit) := by decide +kernel
  have hbits : 1023 * hiddenBit ≤ min bits infinityBits := by
    have hmul := Nat.mul_le_mul_right hiddenBit (Nat.le_add_left 1023 (n : Int).natAbs.log2)
    have hinfinity : 1023 * hiddenBit ≤ infinityBits := by decide
    omega
  have hle : 1.0 ≤ y := by
    rw [← hy, heq, hmagnitude, decide_eq_false (by omega)]
    exact (ofMagnitude_le_iff (by decide) (Nat.min_le_right ..)).mpr hbits
  rwa [le_iff_value isFinite_one (isFinite_of_ofWhole? h), value_one] at hle

end Whole

end ClusterBalance.Decimal
