import ClusterBalance.Decimal.Shortest
import ClusterBalance.Proofs.Decimal.Near

/-! The shortest decimal of a double. Main statement: it is near to the double, for one of the grids
up to seventeen digits has a point that is. -/

namespace ClusterBalance.Decimal

/-- The value of a decimal. -/
def Numeral.value (x : Numeral) : ℚ := x.digits * 10 ^ x.exponent

section Interval

variable {significand : Nat} {exponent : Int}

theorem holds_iff (i : Interval) (n d : Nat) :
    i.holds n d = true ↔ i.low * d ≤ n * i.denominator ∧ n * i.denominator ≤ i.high * d ∧
      (i.closed = false → i.low * d < n * i.denominator ∧ n * i.denominator < i.high * d) := by
  unfold Interval.holds
  cases i.closed with
  | true => simp
  | false =>
    simp only [Bool.false_eq_true, if_false, Bool.and_eq_true, decide_eq_true_eq, forall_const]
    omega

theorem around_scale (k d n : Nat) (shift : Int) (hd : 0 < d) :
    ((scaleBinary k 1 shift).1 * d ≤ n * (scaleBinary 1 1 shift).2 ↔
        (k : ℚ) * 2 ^ shift ≤ n / d) ∧
      (n * (scaleBinary 1 1 shift).2 ≤ (scaleBinary k 1 shift).1 * d ↔
        (n / d : ℚ) ≤ k * 2 ^ shift) := by
  have hscale := scaleBinary_eq k 1 shift
  have hpos : (0 : ℚ) < (scaleBinary 1 1 shift).2 := by
    exact_mod_cast scaleBinary_pos 1 Nat.one_pos shift
  have hd' : (0 : ℚ) < d := by exact_mod_cast hd
  rw [Nat.cast_one, div_one] at hscale
  change _ / ((scaleBinary 1 1 shift).2 : ℚ) = _ at hscale
  rw [← hscale, div_le_div_iff₀ hpos hd', div_le_div_iff₀ hd' hpos]
  constructor <;> exact_mod_cast Iff.rfl

/-- The interval around a double holds the quotients that the double is near to. -/
theorem holds_around_iff (hpos : 0 < significand) {n d : Nat} (hd : 0 < d) :
    (Interval.around significand exponent).holds n d = true ↔
      Near significand exponent (n / d) := by
  have hquarters := quartersBelow_le significand exponent
  have hcast : ((4 * significand - quartersBelow significand exponent : Nat) : ℚ) =
      4 * significand - quartersBelow significand exponent := by
    rw [Nat.cast_sub (by omega)]
    norm_num
  obtain ⟨hlow, hlow'⟩ := around_scale (4 * significand - quartersBelow significand exponent) d n
    (exponent - 2) hd
  obtain ⟨hhigh', hhigh⟩ := around_scale (4 * significand + 2) d n (exponent - 2) hd
  rw [hcast] at hlow hlow'
  rw [show ((4 * significand + 2 : Nat) : ℚ) = 4 * significand + 2 by norm_num] at hhigh hhigh'
  have hnear : Near significand exponent (n / d) ↔
      (4 * significand - quartersBelow significand exponent : ℚ) * 2 ^ (exponent - 2) ≤ n / d ∧
        (n / d : ℚ) ≤ (4 * significand + 2) * 2 ^ (exponent - 2) ∧ (significand % 2 = 1 →
          (4 * significand - quartersBelow significand exponent : ℚ) * 2 ^ (exponent - 2) < n / d ∧
          (n / d : ℚ) < (4 * significand + 2) * 2 ^ (exponent - 2)) :=
    ⟨fun h => ⟨h.low, h.high, h.odd⟩, fun h => ⟨h.1, h.2.1, h.2.2⟩⟩
  have hclosed : (Interval.around significand exponent).closed = false ↔ significand % 2 = 1 := by
    rw [Interval.around, decide_eq_false_iff_not]
    omega
  rw [holds_iff, hclosed, hnear, ← not_le, ← not_le, ← not_le, ← not_le, ← hlow, ← hlow', ← hhigh,
    ← hhigh']
  rfl

end Interval

section Leading

/-- For quotients of the size of doubles, the guess of the leading decimal digit from the binary
digits is one too large at most. -/
theorem ten_zpow_le_two_zpow {t g : Int} (ht : -1100 ≤ t ∧ t ≤ 1100)
    (hg : g = t * 30103 / 100000) : (10 : ℚ) ^ (g - 1) ≤ 2 ^ (t - 1) := by
  -- the guess is rounded down, which for sizes below zero is away from it: hence two tables
  have hup : ∀ u < 1101, 10 ^ (u * 30103 / 100000) ≤ 2 ^ (u + 1) := by decide +kernel
  have hdown : ∀ u < 1101, 2 ^ u ≤ 10 ^ ((u * 30103 + 99999) / 100000) := by decide +kernel
  rcases Int.le_total 0 t with h | h
  · obtain ⟨u, rfl⟩ := Int.eq_ofNat_of_zero_le h
    have hpow : (10 : ℚ) ^ (u * 30103 / 100000) ≤ 2 ^ (u + 1) := by
      exact_mod_cast hup u (by omega)
    have hg : g = ((u * 30103 / 100000 : Nat) : Int) := by omega
    rw [hg, zpow_sub₀ (by norm_num), zpow_sub₀ (by norm_num), zpow_natCast, zpow_natCast]
    rw [pow_succ] at hpow
    norm_num
    have hpos : (0 : ℚ) < 2 ^ u := by positivity
    linarith
  · obtain ⟨u, hu⟩ := Int.eq_ofNat_of_zero_le (Int.neg_nonneg_of_nonpos h)
    have hpow : (2 : ℚ) ^ u ≤ 10 ^ ((u * 30103 + 99999) / 100000) := by
      exact_mod_cast hdown u (by omega)
    have hg : g = -(((u * 30103 + 99999) / 100000 : Nat) : Int) := by omega
    rw [hg, show t = -(u : Int) by omega, zpow_sub₀ (by norm_num), zpow_sub₀ (by norm_num),
      zpow_neg, zpow_neg, zpow_natCast, zpow_natCast]
    have hinv : ((10 : ℚ) ^ ((u * 30103 + 99999) / 100000))⁻¹ ≤ (2 ^ u)⁻¹ :=
      inv_anti₀ (by positivity) hpow
    have hpos : (0 : ℚ) < (2 ^ u)⁻¹ := by positivity
    rw [zpow_one, zpow_one]
    linarith

/-- The leading decimal digit of a quotient does not count more than the quotient. -/
theorem leadingExponent_le {num den : Nat} (hnum : 0 < num) (hden : 0 < den)
    (hlow : (2 : ℚ) ^ (-1099 : Int) ≤ num / den) (hhigh : (num / den : ℚ) ≤ 2 ^ (1099 : Int)) :
    (10 : ℚ) ^ leadingExponent num den ≤ num / den := by
  have hreaches (k : Int) :
      (scaleDecimal num den (-k)).2 ≤ (scaleDecimal num den (-k)).1 ↔
        (10 : ℚ) ^ k ≤ num / den := by
    have hpos : (0 : ℚ) < (scaleDecimal num den (-k)).2 := by
      exact_mod_cast scaleDecimal_pos num hden (-k)
    rw [← @Nat.cast_le ℚ, ← one_le_div₀ hpos, scaleDecimal_eq, zpow_neg, ← div_eq_mul_inv,
      one_le_div₀ (by positivity)]
  obtain ⟨hless, hmore⟩ := quotient_bounds hnum hden
  have hsize : -1100 ≤ (num.log2 : Int) - den.log2 ∧ (num.log2 : Int) - den.log2 ≤ 1100 := by
    have h := (zpow_lt_zpow_iff_right₀ (by norm_num : (1 : ℚ) < 2)).mp (lt_of_lt_of_le hless hhigh)
    have h' := (zpow_lt_zpow_iff_right₀ (by norm_num : (1 : ℚ) < 2)).mp (lt_of_le_of_lt hlow hmore)
    omega
  simp only [leadingExponent, hreaches, decide_eq_true_eq]
  split
  · assumption
  split
  · assumption
  · exact le_trans (ten_zpow_le_two_zpow hsize rfl) (le_of_lt hless)

end Leading

section Grid

variable {significand : Nat} {exponent k : Int}

/-- The value in the middle of the interval around a double. -/
theorem around_value :
    ((Interval.around significand exponent).value : ℚ) /
      (Interval.around significand exponent).denominator = significand * 2 ^ exponent := by
  have hscale := scaleBinary_eq (4 * significand) 1 (exponent - 2)
  apply hscale.trans
  rw [two_zpow_eq_quarters exponent]
  push_cast
  ring

theorem denominator_pos : 0 < (Interval.around significand exponent).denominator :=
  scaleBinary_pos 1 Nat.one_pos (exponent - 2)

theorem fits_iff (hpos : 0 < significand) (m : Nat) :
    (Interval.around significand exponent).holds (scaleDecimal m 1 k).1 (scaleDecimal m 1 k).2 =
      true ↔ Near significand exponent (m * 10 ^ k) := by
  rw [holds_around_iff hpos (scaleDecimal_pos m Nat.one_pos k), scaleDecimal_eq, Nat.cast_one,
    div_one]

/-- A grid offers only decimals that are near to the double. -/
theorem near_of_onGrid? (hpos : 0 < significand) {x : Numeral}
    (h : (Interval.around significand exponent).onGrid? k = some x) :
    Near significand exponent x.value := by
  simp only [Interval.onGrid?] at h
  generalize (if roundDiv _ _ = _ then roundDiv _ _ + 1 else _) = far at h
  split at h
  next hnear =>
    cases h
    exact (fits_iff hpos _).mp hnear
  next =>
    split at h
    next hnear =>
      cases h
      exact (fits_iff hpos _).mp hnear
    next => cases h

/-- A multiple of a power of ten is near to a double if it is half that power away from it, and the
double has seventeen digits above that power. -/
theorem near_of_seventeen (hlt : significand < 2 * hiddenBit) {m : Nat}
    (hlow : (significand * 2 ^ exponent : ℚ) ≤ (m + 1 / 2) * 10 ^ k)
    (hhigh : (m - 1 / 2) * 10 ^ k ≤ (significand * 2 ^ exponent : ℚ))
    (hfine : (10 : ℚ) ^ (k + 16) ≤ significand * 2 ^ exponent) :
    Near significand exponent (m * 10 ^ k) := by
  have hp : (0 : ℚ) < 2 ^ (exponent - 2) := by positivity
  have hsignificand : (significand : ℚ) + 1 ≤ 2 * hiddenBit := by exact_mod_cast hlt
  have hbound : (significand : ℚ) * 2 ^ (exponent - 2) ≤
      (2 * hiddenBit - 1) * 2 ^ (exponent - 2) := by
    gcongr
    linarith
  rw [zpow_add₀ (by norm_num)] at hfine
  rw [two_zpow_eq_quarters exponent] at hlow hhigh hfine
  -- half a unit of the last of seventeen digits does not reach the points halfway to the
  -- neighbours, so the bounds are strict and hold for an odd significand too
  have hstrict : (4 * significand - quartersBelow significand exponent) * (2 : ℚ) ^ (exponent - 2) <
      m * 10 ^ k ∧ m * 10 ^ k < (4 * significand + 2) * (2 : ℚ) ^ (exponent - 2) := by
    by_cases hpower : significand = hiddenBit
    · have hquarters : (1 : ℚ) ≤ quartersBelow significand exponent := by
        unfold quartersBelow
        split <;> norm_num
      have hquarters : 2 ^ (exponent - 2) ≤
          quartersBelow significand exponent * (2 : ℚ) ^ (exponent - 2) := by
        nlinarith
      have hpower : (significand : ℚ) = hiddenBit := by rw [hpower]
      rw [hpower] at hlow hhigh hfine ⊢
      norm_num [hiddenBit] at hlow hhigh hfine ⊢
      constructor <;> linarith
    · have hquarters : quartersBelow significand exponent = 2 := if_neg fun h => hpower h.1
      rw [hquarters]
      norm_num [hiddenBit] at hlow hhigh hfine hbound ⊢
      constructor <;> linarith
  exact ⟨le_of_lt hstrict.1, le_of_lt hstrict.2, fun _ => hstrict⟩

/-- A grid with seventeen digits offers a decimal. -/
theorem onGrid?_isSome (hpos : 0 < significand) (hlt : significand < 2 * hiddenBit)
    (hfine : (10 : ℚ) ^ (k + 16) ≤ significand * 2 ^ exponent) :
    ((Interval.around significand exponent).onGrid? k).isSome = true := by
  have hscale := scaleDecimal_eq (Interval.around significand exponent).value
    (Interval.around significand exponent).denominator (-k)
  have hd := scaleDecimal_pos (Interval.around significand exponent).value
    (@denominator_pos significand exponent) (-k)
  rw [around_value] at hscale
  simp only [Interval.onGrid?]
  generalize scaleDecimal _ (Interval.around significand exponent).denominator (-k) = scaled at *
  obtain ⟨n, d⟩ := scaled
  dsimp only at *
  have hnear : Near significand exponent (roundDiv n d * 10 ^ k) := by
    obtain ⟨hlow, hhigh⟩ := roundDiv_bounds n hd
    have hd' : (0 : ℚ) < d := by exact_mod_cast hd
    have hvalue : (significand * 2 ^ exponent : ℚ) = n / d * 10 ^ k := by
      rw [hscale, mul_assoc _ ((10 : ℚ) ^ (-k)), ← zpow_add₀ (by norm_num), Int.add_left_neg]
      norm_num
    have hlow : (2 * n : ℚ) ≤ 2 * (roundDiv n d * d) + d := by exact_mod_cast hlow
    have hhigh : (2 * (roundDiv n d * d) : ℚ) ≤ 2 * n + d := by exact_mod_cast hhigh
    apply near_of_seventeen hlt _ _ hfine <;> rw [hvalue] <;> gcongr
    · rw [div_le_iff₀ hd']
      linarith
    · rw [le_div_iff₀ hd']
      linarith
  rw [if_pos ((fits_iff hpos _).mpr hnear)]
  rfl

/-- The shortest decimal of a double is near to it. -/
theorem near_shortest (hpos : 0 < significand) (hlt : significand < 2 * hiddenBit)
    (hexponent : leastExponent ≤ exponent ∧ exponent ≤ 1000) :
    Near significand exponent (shortest significand exponent).value := by
  have hvalue : 0 < (Interval.around significand exponent).value := by
    change 0 < (4 * significand) <<< (exponent - 2).toNat
    rw [Nat.shiftLeft_eq]
    positivity
  have hleading := leadingExponent_le hvalue (@denominator_pos significand exponent)
  rw [around_value] at hleading
  have hsignificand : (1 : ℚ) ≤ significand := by exact_mod_cast hpos
  have hsignificand' : (significand : ℚ) ≤ 2 * hiddenBit := by exact_mod_cast Nat.le_of_lt hlt
  have hleading := hleading
    (calc (2 : ℚ) ^ (-1099 : Int) ≤ 2 ^ exponent :=
          zpow_le_zpow_right₀ (by norm_num) (by unfold leastExponent at hexponent; omega)
      _ ≤ significand * 2 ^ exponent := le_mul_of_one_le_left (by positivity) hsignificand)
    (calc (significand * 2 ^ exponent : ℚ) ≤ 2 * hiddenBit * 2 ^ exponent := by gcongr
      _ = 2 ^ (1 + 52 + exponent) := by
        rw [hiddenBit_eq, zpow_add₀ two_ne_zero, zpow_add₀ two_ne_zero, zpow_one]
      _ ≤ 2 ^ (1099 : Int) := zpow_le_zpow_right₀ (by norm_num) (by omega))
  rw [shortest, if_neg (Nat.ne_of_gt hpos)]
  simp only [Interval.shortest]
  generalize leadingExponent _ _ = lead at *
  cases hfound : ((List.range maxDigits).map fun i : Nat => lead - (i : Int)).findSome?
      (Interval.around significand exponent).onGrid? with
  | none =>
    -- the finest grid of the search has seventeen digits
    have hnone := List.findSome?_eq_none_iff.mp hfound (lead - 16)
      (List.mem_map.mpr ⟨16, by decide, rfl⟩)
    have hsome := @onGrid?_isSome significand exponent (lead - 16) hpos hlt
      (by rwa [Int.sub_add_cancel])
    rw [hnone] at hsome
    cases hsome
  | some x =>
    obtain ⟨k, -, hx⟩ := List.exists_of_findSome?_eq_some hfound
    exact near_of_onGrid? hpos hx

/-- A double above zero is near only to decimals above zero. -/
theorem digits_pos_of_near (hpos : 0 < significand) {x : Numeral}
    (h : Near significand exponent x.value) : 0 < x.digits := by
  have hsignificand : (1 : ℚ) ≤ significand := by exact_mod_cast hpos
  have hquarters := cast_quartersBelow_le significand exponent
  have hlow : (0 : ℚ) < (4 * significand - quartersBelow significand exponent) *
      2 ^ (exponent - 2) := mul_pos (by linarith) (by positivity)
  apply Nat.pos_of_ne_zero
  intro hzero
  have hle := lt_of_lt_of_le hlow h.low
  simp [Numeral.value, hzero] at hle

end Grid

end ClusterBalance.Decimal
