import Mathlib.Algebra.Order.Field.Power
import Mathlib.Data.Rat.Cast.Order
import Mathlib.Tactic.Linarith
import Mathlib.Tactic.FieldSimp
import Mathlib.Tactic.Positivity
import Mathlib.Tactic.Ring
import ClusterBalance.Proofs.Decimal.Bits

/-! Quotients near a double. Main statement: a quotient between the points halfway to the two
neighbours of a double has that double as the nearest one, and a decimal there is read as it. -/

namespace ClusterBalance.Decimal

/-- What separates a double from the point halfway to the one below it, in quarters of its last
place. The gap below a power of two is half the gap above it, except at the least exponent. -/
def quartersBelow (significand : Nat) (exponent : Int) : Nat :=
  if significand = hiddenBit ∧ exponent > leastExponent then 1 else 2

theorem quartersBelow_le (significand : Nat) (exponent : Int) :
    quartersBelow significand exponent ≤ 2 := by
  unfold quartersBelow
  split <;> omega

theorem cast_quartersBelow_le (significand : Nat) (exponent : Int) :
    (quartersBelow significand exponent : ℚ) ≤ 2 := by
  exact_mod_cast quartersBelow_le significand exponent

/-- A unit in quarters of it. -/
theorem two_zpow_eq_quarters (exponent : Int) :
    (2 : ℚ) ^ exponent = 4 * 2 ^ (exponent - 2) := by
  rw [zpow_sub₀ two_ne_zero]
  norm_num
  ring

/-- The quotients for which a double is the nearest one. -/
structure Near (significand : Nat) (exponent : Int) (q : ℚ) : Prop where
  low : (4 * significand - quartersBelow significand exponent) * 2 ^ (exponent - 2) ≤ q
  high : q ≤ (4 * significand + 2) * 2 ^ (exponent - 2)
  odd : significand % 2 = 1 →
    (4 * significand - quartersBelow significand exponent) * 2 ^ (exponent - 2) < q ∧
      q < (4 * significand + 2) * 2 ^ (exponent - 2)

section Scale

variable {num den : Nat}

theorem scale_eq {base : ℚ} {n d a b : ℚ} {shift : Int}
    (hn : n = a * base ^ shift.toNat) (hd : d = b * base ^ (-shift).toNat) :
    n / d = a / b * base ^ shift := by
  subst hn hd
  rcases Int.le_total 0 shift with h | h
  · rw [Int.toNat_eq_zero.mpr (Int.neg_nonpos_of_nonneg h), pow_zero, mul_one, mul_div_right_comm]
    congr 1
    rw [← zpow_natCast, Int.toNat_of_nonneg h]
  · rw [Int.toNat_eq_zero.mpr h, pow_zero, mul_one, ← div_div, div_eq_mul_inv (a / b)]
    congr 1
    rw [← zpow_natCast, Int.toNat_of_nonneg (Int.neg_nonneg_of_nonpos h), zpow_neg, inv_inv]

theorem scaleBinary_eq (num den : Nat) (shift : Int) :
    ((scaleBinary num den shift).1 : ℚ) / (scaleBinary num den shift).2 =
      num / den * 2 ^ shift := by
  apply scale_eq <;> simp [scaleBinary, Nat.shiftLeft_eq]

theorem scaleBinary_pos (num : Nat) (hden : 0 < den) (shift : Int) :
    0 < (scaleBinary num den shift).2 := by
  change 0 < den <<< (-shift).toNat
  rw [Nat.shiftLeft_eq]
  exact Nat.mul_pos hden (Nat.two_pow_pos _)

theorem scaleDecimal_eq (num den : Nat) (shift : Int) :
    ((scaleDecimal num den shift).1 : ℚ) / (scaleDecimal num den shift).2 =
      num / den * 10 ^ shift := by
  apply scale_eq <;> simp [scaleDecimal, Nat.pow_eq]

theorem scaleDecimal_pos (num : Nat) (hden : 0 < den) (shift : Int) :
    0 < (scaleDecimal num den shift).2 := by
  exact Nat.mul_pos hden (Nat.pow_pos (by decide))

end Scale

/-- A quotient is rounded to the whole number that is half a unit away at most, and to an odd one
only if it is less than that away. -/
theorem roundDiv_eq {n d s : Nat} (hd : 0 < d) (hlow : 2 * s * d ≤ 2 * n + d)
    (hhigh : 2 * n ≤ 2 * s * d + d)
    (hodd : s % 2 = 1 → 2 * s * d < 2 * n + d ∧ 2 * n < 2 * s * d + d) : roundDiv n d = s := by
  have hn := Nat.div_add_mod n d
  have hrest := Nat.mod_lt n hd
  simp only [roundDiv]
  generalize n / d = q at *
  generalize n % d = r at *
  have hle : s ≤ q + 1 := by
    by_contra hlt
    have : (q + 2) * d ≤ s * d := Nat.mul_le_mul_right d (by omega)
    have : 2 * s * d = 2 * (s * d) := Nat.mul_assoc ..
    have : (q + 2) * d = d * q + 2 * d := by ring
    omega
  have hge : q ≤ s := by
    by_contra hlt
    have : (s + 1) * d ≤ q * d := Nat.mul_le_mul_right d (by omega)
    have : 2 * s * d = 2 * (s * d) := Nat.mul_assoc ..
    have : (s + 1) * d = s * d + d := by ring
    have : d * q = q * d := Nat.mul_comm ..
    omega
  have hsd : 2 * s * d = 2 * (s * d) := Nat.mul_assoc ..
  rcases Nat.eq_or_lt_of_le hge with rfl | hlt
  · have hqd : d * q = q * d := Nat.mul_comm ..
    rw [if_neg]
    omega
  · obtain rfl : s = q + 1 := by omega
    have hqd : (q + 1) * d = d * q + d := by ring
    rw [if_pos]
    omega

theorem roundDiv_eq_of_div {n d s : Nat} (hd : 0 < d) (hlow : (2 * s - 1 : ℚ) ≤ 2 * (n / d))
    (hhigh : 2 * (n / d) ≤ (2 * s + 1 : ℚ))
    (hodd : s % 2 = 1 → (2 * s - 1 : ℚ) < 2 * (n / d) ∧ 2 * (n / d) < (2 * s + 1 : ℚ)) :
    roundDiv n d = s := by
  have hd' : (0 : ℚ) < d := by exact_mod_cast hd
  rw [← mul_div_assoc, le_div_iff₀ hd', div_le_iff₀ hd', lt_div_iff₀ hd', div_lt_iff₀ hd',
    sub_mul, add_mul, one_mul] at *
  rw [sub_le_iff_le_add] at hlow
  rw [sub_lt_iff_lt_add] at hodd
  exact roundDiv_eq hd (by exact_mod_cast hlow) (by exact_mod_cast hhigh) (by exact_mod_cast hodd)

section Unit

variable {num den : Nat}

theorem log2_bounds {n : Nat} (h : 0 < n) :
    (2 : ℚ) ^ (n.log2 : Int) ≤ n ∧ (n : ℚ) < 2 ^ ((n.log2 : Int) + 1) := by
  constructor
  · rw [zpow_natCast]
    exact_mod_cast Nat.log2_self_le (Nat.ne_of_gt h)
  · have hlt : n < 2 ^ (n.log2 + 1) := Nat.lt_log2_self
    exact_mod_cast hlt

/-- A quotient lies between the powers of two that the digits of its parts suggest. -/
theorem quotient_bounds (hnum : 0 < num) (hden : 0 < den) :
    (2 : ℚ) ^ ((num.log2 : Int) - den.log2 - 1) < num / den ∧
      (num / den : ℚ) < 2 ^ ((num.log2 : Int) - den.log2 + 1) := by
  obtain ⟨hnumLow, hnumHigh⟩ := log2_bounds hnum
  obtain ⟨hdenLow, hdenHigh⟩ := log2_bounds hden
  have hpos : (0 : ℚ) < den := by exact_mod_cast hden
  constructor
  · rw [lt_div_iff₀ hpos]
    calc (2 : ℚ) ^ ((num.log2 : Int) - den.log2 - 1) * den
        < 2 ^ ((num.log2 : Int) - den.log2 - 1) * 2 ^ ((den.log2 : Int) + 1) := by gcongr
      _ = 2 ^ (num.log2 : Int) := by
        rw [← zpow_add₀ two_ne_zero]
        congr 1
        omega
      _ ≤ num := hnumLow
  · rw [div_lt_iff₀ hpos]
    calc (num : ℚ) < 2 ^ ((num.log2 : Int) + 1) := hnumHigh
      _ = 2 ^ ((num.log2 : Int) - den.log2 + 1) * 2 ^ (den.log2 : Int) := by
        rw [← zpow_add₀ two_ne_zero]
        congr 1
        omega
      _ ≤ 2 ^ ((num.log2 : Int) - den.log2 + 1) * den := by gcongr

theorem hiddenBit_eq : (hiddenBit : ℚ) = 2 ^ (52 : Int) := by norm_num [hiddenBit]

/-- The unit of a quotient leaves it 53 binary digits, unless it is the least one. -/
theorem unitExponent_bounds (hnum : 0 < num) (hden : 0 < den) :
    leastExponent ≤ unitExponent num den ∧
      (num / den : ℚ) < 2 * hiddenBit * 2 ^ unitExponent num den ∧
      (unitExponent num den = leastExponent ∨
        hiddenBit * 2 ^ unitExponent num den ≤ (num / den : ℚ)) := by
  obtain ⟨hlow, hhigh⟩ := quotient_bounds hnum hden
  have hscale := scaleBinary_eq num den (-((num.log2 : Int) - den.log2 - 53))
  have hpos := scaleBinary_pos num hden (-((num.log2 : Int) - den.log2 - 53))
  -- the unit before it is kept from falling below the least one
  obtain ⟨unit, hunit, hless, hmore⟩ : ∃ unit, unitExponent num den = max leastExponent unit ∧
      (num / den : ℚ) < 2 * hiddenBit * 2 ^ unit ∧ hiddenBit * 2 ^ unit ≤ (num / den : ℚ) := by
    refine ⟨_, rfl, ?_⟩
    generalize hguess : (num.log2 : Int) - den.log2 - 53 = guess at *
    have hlow : (2 : ℚ) ^ (guess + 52) < num / den := by
      rwa [show guess + 52 = (num.log2 : Int) - den.log2 - 1 by omega]
    have hhigh : (num / den : ℚ) < 2 ^ (guess + 54) := by
      rwa [show guess + 54 = (num.log2 : Int) - den.log2 + 1 by omega]
    have hcompare : (scaleBinary num den (-guess)).1 <
        (scaleBinary num den (-guess)).2 * (2 * hiddenBit) ↔
          (num / den : ℚ) < 2 * hiddenBit * 2 ^ guess := by
      have hpos' : (0 : ℚ) < (scaleBinary num den (-guess)).2 := by exact_mod_cast hpos
      rw [← @Nat.cast_lt ℚ, Nat.cast_mul, mul_comm, ← div_lt_iff₀ hpos', hscale, zpow_neg,
        ← div_eq_mul_inv, div_lt_iff₀ (by positivity)]
      push_cast
      rfl
    rw [zpow_add₀ two_ne_zero] at hlow hhigh
    rw [hiddenBit_eq] at *
    split
    next hlt => exact ⟨hcompare.mp hlt, by linarith⟩
    next hge =>
      have hge := not_lt.mp (mt hcompare.mpr hge)
      rw [zpow_add₀ two_ne_zero]
      norm_num at *
      constructor <;> linarith
  rw [hunit]
  rcases Int.le_total leastExponent unit with h | h
  · rw [max_eq_right h]
    exact ⟨h, hless, .inr hmore⟩
  · rw [max_eq_left h]
    refine ⟨Int.le_refl _, lt_of_lt_of_le hless ?_, .inl rfl⟩
    gcongr
    norm_num

end Unit

section Nearest

variable {num den significand step : Nat} {unit : Int}

/-- The steps of the exponent at a quotient that a double is near to: those of the double, or one
less where the double is a power of two and the quotient lies below it. -/
theorem unit_cases (hlt : significand < 2 * hiddenBit)
    (hstep : step = 0 ∨ hiddenBit ≤ significand) {q : ℚ}
    (hnear : Near significand (leastExponent + (step : Nat)) q) (hleast : leastExponent ≤ unit)
    (hless : q < 2 * hiddenBit * 2 ^ unit)
    (hmore : unit = leastExponent ∨ hiddenBit * 2 ^ unit ≤ q) :
    unit = leastExponent + (step : Nat) ∨
      unit = leastExponent + (step : Nat) - 1 ∧ significand = hiddenBit := by
  obtain ⟨hlow, hhigh, -⟩ := hnear
  generalize hexponent : leastExponent + (step : Nat) = exponent at *
  have hp : (0 : ℚ) < 2 ^ (exponent - 2) := by positivity
  -- the unit is not above that of the double
  have hle : unit ≤ exponent := by
    by_contra habove
    have hmore := hmore.resolve_left (by omega)
    have hunit : (2 : ℚ) ^ (exponent - 2 + 3) ≤ 2 ^ unit :=
      zpow_le_zpow_right₀ (by norm_num) (by omega)
    have hs : (significand : ℚ) + 1 ≤ 2 * hiddenBit := by exact_mod_cast hlt
    rw [zpow_add₀ two_ne_zero] at hunit
    have hs' : (significand + 1) * (2 : ℚ) ^ (exponent - 2) ≤
        2 * hiddenBit * 2 ^ (exponent - 2) := by
      gcongr
    have hunit' : (hiddenBit : ℚ) * (2 ^ (exponent - 2) * 2 ^ (3 : Int)) ≤
        hiddenBit * 2 ^ unit := by
      gcongr
    norm_num [hiddenBit] at *
    linarith
  rcases Int.lt_or_eq_of_le hle with hbelow | heq
  · -- a unit below that of the double
    have hge : hiddenBit ≤ significand := hstep.resolve_left (by omega)
    have hunit : (2 : ℚ) ^ unit ≤ 2 ^ (exponent - 2 + 1) :=
      zpow_le_zpow_right₀ (by norm_num) (by omega)
    rw [zpow_add₀ two_ne_zero] at hunit
    rcases Nat.eq_or_lt_of_le hge with hs | hs
    · refine .inr ⟨?_, hs.symm⟩
      by_contra hne
      have hunit : (2 : ℚ) ^ unit ≤ 2 ^ (exponent - 2) :=
        zpow_le_zpow_right₀ (by norm_num) (by omega)
      have hquarters : quartersBelow significand exponent = 1 :=
        if_pos ⟨hs.symm, by omega⟩
      rw [hquarters, ← hs] at hlow
      norm_num [hiddenBit] at hlow hless
      linarith
    · have hquarters : quartersBelow significand exponent = 2 := if_neg (by omega)
      have hs' : (hiddenBit : ℚ) + 1 ≤ significand := by exact_mod_cast hs
      have hs' : (hiddenBit + 1) * (2 : ℚ) ^ (exponent - 2) ≤ significand * 2 ^ (exponent - 2) := by
        gcongr
      rw [hquarters] at hlow
      norm_num [hiddenBit] at *
      linarith
  · exact .inl heq

/-- A quotient has the double that it is near to as the nearest one. -/
theorem nearest_eq (hnum : 0 < num) (hden : 0 < den)
    (hlt : significand < 2 * hiddenBit) (hstep : step = 0 ∨ hiddenBit ≤ significand)
    (hfinite : step * hiddenBit + significand < infinityBits) (negative : Bool)
    (hnear : Near significand (leastExponent + (step : Nat)) (num / den)) :
    nearest negative num den = ofMagnitude negative (step * hiddenBit + significand) := by
  obtain ⟨hleast, hless, hmore⟩ := unitExponent_bounds hnum hden
  have hscale := scaleBinary_eq num den (-unitExponent num den)
  have hd := scaleBinary_pos num hden (-unitExponent num den)
  have hcases := unit_cases hlt hstep hnear hleast hless hmore
  simp only [nearest, if_neg (Nat.ne_of_gt hnum)]
  generalize unitExponent num den = unit at *
  generalize scaleBinary num den (-unit) = scaled at *
  obtain ⟨n, d⟩ := scaled
  dsimp only at *
  have hq : (num / den : ℚ) = n / d * 2 ^ unit := by
    rw [hscale, mul_assoc, ← zpow_add₀ two_ne_zero]
    simp
  rw [hq] at hnear hless
  obtain ⟨hlow, hhigh, hodd⟩ := hnear
  have hp : (0 : ℚ) < 2 ^ (leastExponent + (step : Nat) - 2) := by positivity
  rcases hcases with rfl | ⟨rfl, rfl⟩
  · -- the rounded quotient is the significand
    have hquarters := cast_quartersBelow_le significand (leastExponent + (step : Nat))
    rw [two_zpow_eq_quarters (leastExponent + (step : Nat)), ← mul_assoc] at hlow hhigh hodd
    have hround : roundDiv n d = significand := by
      apply roundDiv_eq_of_div hd
      · have := le_of_mul_le_mul_right hlow hp
        linarith
      · have := le_of_mul_le_mul_right hhigh hp
        linarith
      · intro h
        obtain ⟨hlow, hhigh⟩ := hodd h
        have := lt_of_mul_lt_mul_right hlow (le_of_lt hp)
        have := lt_of_mul_lt_mul_right hhigh (le_of_lt hp)
        constructor <;> linarith
    rw [hround, add_sub_cancel_left, Int.toNat_natCast, Nat.min_eq_left (Nat.le_of_lt hfinite)]
  · -- the quotient is rounded up to the next power of two
    have hquarters : quartersBelow hiddenBit (leastExponent + (step : Nat)) = 1 :=
      if_pos ⟨rfl, by omega⟩
    have hscaled : (2 : ℚ) ^ (leastExponent + (step : Nat) - 1) =
        2 * 2 ^ (leastExponent + (step : Nat) - 2) := by
      rw [zpow_sub₀ two_ne_zero, two_zpow_eq_quarters]
      norm_num
      ring
    rw [hscaled, ← mul_assoc, hquarters] at hlow
    have hless : (n / d : ℚ) < 2 * hiddenBit :=
      lt_of_mul_lt_mul_right hless (le_of_lt (by positivity))
    have hround : roundDiv n d = 2 * hiddenBit := by
      have hlow := le_of_mul_le_mul_right hlow hp
      apply roundDiv_eq_of_div hd
      · push_cast at *
        linarith
      · push_cast
        linarith
      · intro h
        omega
    have hunit : (leastExponent + (step : Nat) - 1 - leastExponent).toNat = step - 1 := by omega
    have hbits : (step - 1) * hiddenBit + 2 * hiddenBit = step * hiddenBit + hiddenBit := by
      obtain ⟨k, rfl⟩ : ∃ k, step = k + 1 := ⟨step - 1, by omega⟩
      rw [Nat.add_sub_cancel]
      ring
    rw [hround, hunit, hbits, Nat.min_eq_left (Nat.le_of_lt hfinite)]

end Nearest

section Read

variable {significand step digits : Nat} {exponent : Int}

/-- The steps of the exponent of a finite double. -/
theorem step_le_of_finite (h : step * hiddenBit + significand < infinityBits) : step ≤ 2046 := by
  unfold infinityBits numFields at h
  by_contra hlarge
  have := Nat.mul_le_mul_right hiddenBit (show 2047 ≤ step by omega)
  omega

/-- The decimals that a double is near to are not beyond the powers of ten that are kept small. -/
theorem exponent_bounds (hpos : 0 < significand) (hlt : significand < 2 * hiddenBit)
    (hstep : step ≤ 2046) (hdigits : 0 < digits)
    (hnear : Near significand (leastExponent + (step : Nat)) (digits * 10 ^ exponent)) :
    exponent ≤ 400 ∧ -400 - (digits.log2 : Int) ≤ exponent := by
  have hsmall : (2 : ℚ) ^ (1200 : Int) < 10 ^ (400 : Int) := by
    have h : 2 ^ 1200 < 10 ^ 400 := by decide +kernel
    exact_mod_cast h
  have hsignificand : (1 : ℚ) ≤ significand := by exact_mod_cast hpos
  have hsignificand' : (significand : ℚ) + 1 ≤ 2 * hiddenBit := by exact_mod_cast hlt
  constructor
  · by_contra habove
    have hdigits' : (1 : ℚ) ≤ digits := by exact_mod_cast hdigits
    have hbelow : (10 : ℚ) ^ (400 : Int) < 2 ^ (1200 : Int) :=
      calc (10 : ℚ) ^ (400 : Int) ≤ 10 ^ exponent := zpow_le_zpow_right₀ (by norm_num) (by omega)
        _ ≤ digits * 10 ^ exponent := le_mul_of_one_le_left (by positivity) hdigits'
        _ ≤ (4 * significand + 2) * 2 ^ (leastExponent + (step : Nat) - 2) := hnear.high
        _ < 2 ^ (55 : Int) * 2 ^ (leastExponent + (step : Nat) - 2) := by
          gcongr
          norm_num [hiddenBit] at hsignificand' ⊢
          linarith
        _ = 2 ^ (55 + (leastExponent + (step : Nat) - 2)) := (zpow_add₀ two_ne_zero ..).symm
        _ ≤ 2 ^ (1200 : Int) :=
          zpow_le_zpow_right₀ (by norm_num) (by unfold leastExponent; omega)
    exact lt_asymm hsmall hbelow
  · by_contra hbelow
    obtain ⟨-, hlog⟩ := log2_bounds hdigits
    have hquarters := cast_quartersBelow_le significand (leastExponent + (step : Nat))
    have habove : (2 : ℚ) ^ (-1200 : Int) < 10 ^ (-400 : Int) :=
      calc (2 : ℚ) ^ (-1200 : Int) ≤ 2 ^ (leastExponent + (step : Nat) - 2) :=
            zpow_le_zpow_right₀ (by norm_num) (by unfold leastExponent; omega)
        _ ≤ (4 * significand - quartersBelow significand (leastExponent + (step : Nat))) *
              2 ^ (leastExponent + (step : Nat) - 2) :=
          le_mul_of_one_le_left (by positivity) (by linarith)
        _ ≤ digits * 10 ^ exponent := hnear.low
        _ < 2 ^ ((digits.log2 : Int) + 1) * 10 ^ exponent := by gcongr
        _ ≤ 10 ^ ((digits.log2 : Int) + 1) * 10 ^ exponent := by
          gcongr
          exact_mod_cast Nat.pow_le_pow_left (by decide : 2 ≤ 10) (digits.log2 + 1)
        _ = 10 ^ ((digits.log2 : Int) + 1 + exponent) := (zpow_add₀ (by norm_num) ..).symm
        _ ≤ 10 ^ (-400 : Int) := zpow_le_zpow_right₀ (by norm_num) (by omega)
    rw [zpow_neg, zpow_neg] at habove
    exact not_lt.mpr (inv_anti₀ (by positivity) (le_of_lt hsmall)) habove

/-- A decimal that is near to a double is read as that double. -/
theorem ofDecimal_eq (hpos : 0 < significand) (hlt : significand < 2 * hiddenBit)
    (hstep : step = 0 ∨ hiddenBit ≤ significand)
    (hfinite : step * hiddenBit + significand < infinityBits) (hdigits : 0 < digits)
    (negative : Bool)
    (hnear : Near significand (leastExponent + (step : Nat)) (digits * 10 ^ exponent)) :
    ofDecimal negative digits exponent =
      ofMagnitude negative (step * hiddenBit + significand) := by
  obtain ⟨hle, hge⟩ := exponent_bounds hpos hlt (step_le_of_finite hfinite) hdigits hnear
  have hden := scaleDecimal_pos digits Nat.one_pos exponent
  have hnum : 0 < (scaleDecimal digits 1 exponent).1 :=
    Nat.mul_pos hdigits (Nat.pow_pos (by decide))
  rw [ofDecimal, if_neg (Nat.ne_of_gt hdigits), if_neg (by omega), if_neg (by omega)]
  apply nearest_eq hnum hden hlt hstep hfinite
  rw [scaleDecimal_eq, Nat.cast_one, div_one]
  exact hnear

end Read

end ClusterBalance.Decimal
