import ClusterBalance.Proofs.Decimal.Comparison

/-! How doubles are rounded. Main statement: a sum or difference of finite doubles is a number of
the grid that is nearest to the exact one, or infinite with the sign of the exact one. -/

namespace ClusterBalance.Decimal

open Float.Model Float.Model.UnpackedFloat

/-- A number of the grid is nearest to a number if no other one is nearer. -/
def IsNearest (q r : ℚ) : Prop := ∀ y, OnGrid y → |r - q| ≤ |y - q|

namespace IsNearest

variable {q r y : ℚ}

theorem self (q : ℚ) : IsNearest q q := by
  intro y _
  rw [sub_self, abs_zero]
  exact abs_nonneg _

theorem neg (h : IsNearest q r) : IsNearest (-q) (-r) := by
  intro y hy
  have hnearest := h (-y) hy.neg
  rwa [← abs_neg (-r - -q), ← abs_neg (y - -q), show -(-r - -q) = r - q by ring,
    show -(y - -q) = -y - q by ring]

/-- Rounding does not pass a number of the grid. -/
theorem le_of_le (h : IsNearest q r) (hy : OnGrid y) (hle : y ≤ q) : y ≤ r := by
  by_contra hlt
  have hnearest := h y hy
  rw [abs_of_nonpos (by linarith), abs_of_nonpos (by linarith)] at hnearest
  linarith

theorem ge_of_ge (h : IsNearest q r) (hy : OnGrid y) (hle : q ≤ y) : r ≤ y := by
  have hneg := h.neg.le_of_le hy.neg (neg_le_neg hle)
  linarith

theorem eq_of_onGrid (h : IsNearest q r) (hq : OnGrid q) : r = q :=
  le_antisymm (h.ge_of_ge hq le_rfl) (h.le_of_le hq le_rfl)

end IsNearest

section Residue

/-- A number lies where a significand and the two bits behind it say: the first of them tells on
which side of the middle, the second whether anything is left behind it. -/
def Lies (em : ExtendedMantissa) (x : ℚ) : Prop :=
  match em.roundBit, em.stickyBit with
  | false, false => x = em.mantissa
  | false, true => em.mantissa < x ∧ x < em.mantissa + 1 / 2
  | true, false => x = em.mantissa + 1 / 2
  | true, true => em.mantissa + 1 / 2 < x ∧ x < em.mantissa + 1

variable {em : ExtendedMantissa} {x : ℚ}

theorem Lies.shiftRightOne (h : Lies em x) : Lies em.shiftRightOne (x / 2) := by
  obtain ⟨m, roundBit, stickyBit⟩ := em
  have hdiv : ((m / 2 : ℕ) : ℚ) * 2 + (m % 2 : ℕ) = m := by exact_mod_cast Nat.div_add_mod' m 2
  rcases Nat.mod_two_eq_zero_or_one m with hmod | hmod
  · -- the bit that is dropped is not set
    have hbit : (m % 2 != 0) = false := by rw [hmod]; rfl
    rw [hmod, Nat.cast_zero] at hdiv
    cases roundBit <;> cases stickyBit <;>
      simp only [Lies, ExtendedMantissa.shiftRightOne, hbit, Bool.or_false, Bool.or_true] at h ⊢
    · linarith
    all_goals constructor <;> linarith
  · have hbit : (m % 2 != 0) = true := by rw [hmod]; rfl
    rw [hmod, Nat.cast_one] at hdiv
    cases roundBit <;> cases stickyBit <;>
      simp only [Lies, ExtendedMantissa.shiftRightOne, hbit, Bool.or_false, Bool.or_true] at h ⊢
    · linarith
    all_goals constructor <;> linarith

theorem Lies.shiftRight (h : Lies em x) (n : Nat) : Lies (em >>> n) (x / 2 ^ n) := by
  change Lies (n.repeat ExtendedMantissa.shiftRightOne em) _
  induction n with
  | zero => simpa [Nat.repeat] using h
  | succ n ih =>
    rw [Nat.repeat, pow_succ, ← div_div]
    exact ih.shiftRightOne

/-- A significand is off by half a unit at most when it is rounded. -/
theorem Lies.abs_roundedMantissa_sub_le (h : Lies em x) :
    |(em.roundedMantissa : ℚ) - x| ≤ 1 / 2 := by
  obtain ⟨m, roundBit, stickyBit⟩ := em
  rw [abs_le]
  cases roundBit <;> cases stickyBit <;>
    simp only [Lies, ExtendedMantissa.roundedMantissa, ExtendedMantissa.accuracy,
      Accuracy.roundToNearestEven] at h ⊢ <;> push_cast
  · constructor <;> linarith
  · constructor <;> linarith
  · rcases Nat.mod_two_eq_zero_or_one m with hmod | hmod <;> rw [hmod] <;> push_cast <;>
      constructor <;> linarith
  · constructor <;> linarith

end Residue

section Rounded

variable {m : Nat} {e : Int} {accuracy : Accuracy} {x : ℚ}

/-- The exponent at which a significand is rounded. -/
def roundingExponent (m : Nat) (e : Int) : Int :=
  Format.binary64.targetExponent (totalExponent m e)

theorem roundingExponent_eq (m : Nat) (e : Int) :
    roundingExponent m e = max (m.log2 + e - 52) leastExponent := by
  change max ((m.log2 : Int) + 1 + e - (53 : Nat)) (-1074) = max (m.log2 + e - 52) (-1074)
  congr 1
  omega

theorem Lies.floor (h : Lies (.ofMantissaAndAccuracy m accuracy) x) :
    (m : ℚ) ≤ x ∧ x < m + 1 := by
  rcases accuracy with _ | (_ | _ | _) <;>
    simp only [Lies, ExtendedMantissa.ofMantissaAndAccuracy] at h <;> constructor <;> linarith

/-- At its exponent, a number has 53 bits before the point, or fewer at the least exponent. -/
theorem scaled_bounds (h : Lies (.ofMantissaAndAccuracy m accuracy) x)
    (he : e ≤ roundingExponent m e) :
    x / 2 ^ (roundingExponent m e - e).toNat < 2 * hiddenBit ∧
      (roundingExponent m e = leastExponent ∨
        hiddenBit ≤ x / 2 ^ (roundingExponent m e - e).toNat) := by
  obtain ⟨hlow, hhigh⟩ := h.floor
  obtain ⟨k, hk⟩ := Int.le.dest he
  have hshift : (roundingExponent m e - e).toNat = k := by omega
  rw [hshift, div_lt_iff₀ (by positivity), le_div_iff₀ (by positivity)]
  have hlog : m < 2 ^ (m.log2 + 1) := Nat.lt_log2_self
  rw [roundingExponent_eq] at hk ⊢
  have hbits : (hiddenBit : ℚ) = 2 ^ 52 := by norm_num [hiddenBit]
  rw [hbits]
  constructor
  · calc x < m + 1 := hhigh
      _ ≤ (2 ^ (m.log2 + 1) : ℕ) := by exact_mod_cast hlog
      _ ≤ (2 ^ (53 + k) : ℕ) := by
        exact_mod_cast Nat.pow_le_pow_right Nat.two_pos (show m.log2 + 1 ≤ 53 + k by omega)
      _ = 2 * 2 ^ 52 * 2 ^ k := by
        push_cast
        ring
  · rw [or_iff_not_imp_left]
    intro hleast
    have hm : m ≠ 0 := by
      rintro rfl
      rw [Nat.log2_zero] at hk hleast
      omega
    have hlog' : 2 ^ m.log2 ≤ m := Nat.log2_self_le hm
    calc (2 : ℚ) ^ 52 * 2 ^ k = (2 ^ (52 + k) : ℕ) := by
          push_cast
          ring
      _ ≤ (2 ^ m.log2 : ℕ) := by
        exact_mod_cast Nat.pow_le_pow_right Nat.two_pos (show 52 + k ≤ m.log2 by omega)
      _ ≤ m := by exact_mod_cast hlog'
      _ ≤ x := hlow

/-- A double from its parts, which is zero if the significand is. -/
def assemble (s : Sign) (significand : Nat) (exponent : Int) : UnpackedFloat :=
  if h : significand = 0 then .zero s
  else .finite s significand exponent (Nat.pos_of_ne_zero h)

theorem isRounded_assemble (s : Sign) (h : Canonical m e) : IsRounded (assemble s m e) := by
  unfold assemble
  split
  · exact .zero s
  · exact .finite s _ h

theorem amount_assemble (s : Sign) (m : Nat) (e : Int) :
    amount (assemble s m e) = s.apply m * 2 ^ e := by
  unfold assemble
  split
  next h =>
    subst h
    cases s <;> simp [amount, Sign.apply]
  next => rfl

/-- A significand that is rounded up to 54 bits is halved; otherwise nothing is left to do. -/
theorem shiftToTargetExponent_rounded {n : Nat} {t : Int} (hn : n ≤ 2 * hiddenBit)
    (ht : leastExponent ≤ t) :
    ∃ n' t', shiftToTargetExponent .binary64 n t .exact =
        (.ofMantissaAndAccuracy n' .exact, t') ∧ (n' : ℚ) * 2 ^ t' = n * 2 ^ t ∧
      (n' = n ∧ n < 2 * hiddenBit ∧ t' = t ∨ n' = hiddenBit ∧ t' = t + 1) := by
  have htarget := roundingExponent_eq n t
  rcases Nat.lt_or_eq_of_le hn with hlt | rfl
  · have hlog : n.log2 ≤ 52 := by
      rcases Nat.eq_zero_or_pos n with rfl | hpos
      · decide
      · exact Nat.lt_succ_iff.mp ((Nat.log2_lt (Nat.ne_of_gt hpos)).mpr hlt)
    have hshift : (roundingExponent n t - t).toNat = 0 := by
      rw [htarget]
      omega
    refine ⟨n, t, ?_, rfl, .inl ⟨rfl, hlt, rfl⟩⟩
    change shiftToExponent n t .exact (roundingExponent n t) = _
    rw [shiftToExponent, hshift]
    exact Prod.ext rfl (add_zero t)
  · have hlog : (2 * hiddenBit).log2 = 53 := by decide +kernel
    have hshift : (roundingExponent (2 * hiddenBit) t - t).toNat = 1 := by
      rw [htarget, hlog]
      omega
    refine ⟨hiddenBit, t + 1, ?_, ?_, .inr ⟨rfl, rfl⟩⟩
    · change shiftToExponent (2 * hiddenBit) t .exact (roundingExponent (2 * hiddenBit) t) = _
      rw [shiftToExponent, hshift]
      rfl
    · rw [zpow_add_one₀ two_ne_zero]
      push_cast
      ring

theorem shiftToTargetExponent_eq (accuracy : Accuracy) (he : e ≤ roundingExponent m e) :
    shiftToTargetExponent .binary64 m e accuracy =
      (ExtendedMantissa.ofMantissaAndAccuracy m accuracy >>> (roundingExponent m e - e).toNat,
        roundingExponent m e) := by
  change shiftToExponent m e accuracy (roundingExponent m e) = _
  refine Prod.ext rfl ?_
  change e + ((roundingExponent m e - e).toNat : Int) = roundingExponent m e
  omega

theorem roundWithAccuracy_eq_assemble {em em' : ExtendedMantissa} {t t' : Int}
    (h : shiftToTargetExponent .binary64 m e accuracy = (em, t))
    (h' : shiftToTargetExponent .binary64 em.roundedMantissa t .exact = (em', t')) (s : Sign) :
    roundWithAccuracy .binary64 s m e accuracy = assemble s em'.mantissa t' := by
  simp only [roundWithAccuracy, h, h']
  rfl

/-- A number is rounded to a whole number of units, and is off by half of one at most. -/
theorem roundWithAccuracy_spec (h : Lies (.ofMantissaAndAccuracy m accuracy) x)
    (he : e ≤ roundingExponent m e) (s : Sign) :
    IsRounded (roundWithAccuracy .binary64 s m e accuracy) ∧
      ∃ n : Nat, |(n : ℚ) - x / 2 ^ (roundingExponent m e - e).toNat| ≤ 1 / 2 ∧
        amount (roundWithAccuracy .binary64 s m e accuracy) =
          s.apply n * 2 ^ roundingExponent m e := by
  obtain ⟨hlt, hnormal⟩ := scaled_bounds h he
  have hfirst := shiftToTargetExponent_eq accuracy he
  have hnear := (h.shiftRight (roundingExponent m e - e).toNat).abs_roundedMantissa_sub_le
  have hleast : leastExponent ≤ roundingExponent m e := by
    rw [roundingExponent_eq]
    exact le_max_right _ _
  generalize ExtendedMantissa.ofMantissaAndAccuracy m accuracy >>>
    (roundingExponent m e - e).toNat = em at hfirst hnear
  generalize x / 2 ^ (roundingExponent m e - e).toNat = scaled at *
  generalize roundingExponent m e = t at *
  have hle : em.roundedMantissa ≤ 2 * hiddenBit := by
    have hless : (em.roundedMantissa : ℚ) < (2 * hiddenBit + 1 : ℕ) := by
      push_cast
      linarith [(abs_le.mp hnear).2]
    exact Nat.lt_succ_iff.mp (by exact_mod_cast hless)
  have hnormal' : t = leastExponent ∨ hiddenBit ≤ em.roundedMantissa := by
    refine hnormal.imp_right fun hge => ?_
    have hless : (hiddenBit : ℚ) < (em.roundedMantissa + 1 : ℕ) := by
      push_cast
      linarith [(abs_le.mp hnear).1]
    exact Nat.lt_succ_iff.mp (by exact_mod_cast hless)
  -- rounding can carry into a bit too many, which the second shift drops without loss
  obtain ⟨n, t', hsecond, hamount, hcases⟩ := shiftToTargetExponent_rounded hle hleast
  have hcanonical : Canonical n t' := by
    rcases hcases with ⟨rfl, hless, rfl⟩ | ⟨rfl, rfl⟩
    · exact ⟨hless, hleast, hnormal'⟩
    · exact ⟨by decide, by omega, .inr le_rfl⟩
  rw [roundWithAccuracy_eq_assemble hfirst hsecond]
  refine ⟨isRounded_assemble s hcanonical, em.roundedMantissa, hnear, ?_⟩
  change amount (assemble s n t') = _
  rw [amount_assemble]
  cases s
  · simpa [Sign.apply] using hamount
  · exact hamount

/-- No multiple of the unit is nearer than one that is half a unit away at most. -/
theorem abs_sub_le_of_half {n k : ℤ} {scaled : ℚ} (h : |(n : ℚ) - scaled| ≤ 1 / 2) :
    |(n : ℚ) - scaled| ≤ |(k : ℚ) - scaled| := by
  rcases eq_or_ne k n with rfl | hne
  · exact le_rfl
  · have hone : (1 : ℚ) ≤ |(k : ℚ) - n| := by exact_mod_cast Int.one_le_abs (sub_ne_zero.mpr hne)
    have htriangle := abs_sub_le (k : ℚ) scaled n
    rw [abs_sub_comm scaled] at htriangle
    linarith

/-- A multiple of the unit that is half a unit away at most is nearest on the whole grid: numbers
of the grid that count in smaller units are further away. -/
theorem isNearest_of_half {n : ℤ} {scaled : ℚ} {t : ℤ} (h : |(n : ℚ) - scaled| ≤ 1 / 2)
    (hnormal : t = leastExponent ∨ hiddenBit ≤ scaled) :
    IsNearest (scaled * 2 ^ t) (n * 2 ^ t) := by
  have hpow : (0 : ℚ) < 2 ^ t := by positivity
  have hmultiple (k : ℤ) : |(n : ℚ) * 2 ^ t - scaled * 2 ^ t| ≤ |k * 2 ^ t - scaled * 2 ^ t| := by
    rw [← sub_mul, ← sub_mul, abs_mul, abs_mul]
    exact mul_le_mul_of_nonneg_right (abs_sub_le_of_half h) (abs_nonneg _)
  rintro y ⟨k, f, rfl, hk, hf⟩
  rcases le_or_gt t f with hle | hlt
  · rw [OnGrid.eq_mul_zpow hle]
    exact hmultiple _
  · -- what counts in smaller units ends below a multiple of the unit that is below the number
    have hge : (hiddenBit : ℚ) ≤ scaled := hnormal.resolve_left (by omega)
    have hbelow : (k : ℚ) * 2 ^ f ≤ hiddenBit * 2 ^ t := by
      calc (k : ℚ) * 2 ^ f ≤ (2 * hiddenBit : ℕ) * 2 ^ f := by
            gcongr
            exact_mod_cast (show k ≤ (2 * hiddenBit : ℕ) by omega)
        _ = hiddenBit * 2 ^ (f + 1) := by
            rw [zpow_add_one₀ two_ne_zero]
            push_cast
            ring
        _ ≤ hiddenBit * 2 ^ t := by
            gcongr
            · norm_num
            · omega
    have hfloor : (hiddenBit : ℚ) * 2 ^ t ≤ scaled * 2 ^ t := mul_le_mul_of_nonneg_right hge hpow.le
    have hnear := hmultiple hiddenBit
    rw [Int.cast_natCast, abs_of_nonpos (sub_nonpos.mpr hfloor)] at hnear
    rw [abs_of_nonpos (sub_nonpos.mpr (hbelow.trans hfloor))]
    linarith

theorem isNearest_roundWithAccuracy
    (h : Lies (.ofMantissaAndAccuracy m accuracy) x) (he : e ≤ roundingExponent m e) (s : Sign) :
    IsNearest (s.apply 1 * (x * 2 ^ e)) (amount (roundWithAccuracy .binary64 s m e accuracy)) := by
  obtain ⟨-, n, hnear, hamount⟩ := roundWithAccuracy_spec h he s
  obtain ⟨-, hnormal⟩ := scaled_bounds h he
  have hscaled :
      x * 2 ^ e = x / 2 ^ (roundingExponent m e - e).toNat * 2 ^ roundingExponent m e := by
    obtain ⟨k, hk⟩ := Int.le.dest he
    rw [← hk, add_sub_cancel_left, Int.toNat_natCast, zpow_add₀ two_ne_zero, zpow_natCast]
    field_simp
  have hnearest := isNearest_of_half (n := n) hnear hnormal
  rw [hamount, hscaled]
  cases s
  · simpa [Sign.apply] using hnearest.neg
  · simpa [Sign.apply] using hnearest

end Rounded

section Operations

variable {u v : UnpackedFloat}

/-- An unpacked double is the rounded value of a number. -/
structure RoundsTo (q : ℚ) (u : UnpackedFloat) : Prop where
  rounded : IsRounded u
  nearest : IsNearest q (amount u)

theorem RoundsTo.self (h : IsRounded u) : RoundsTo (amount u) u := ⟨h, .self _⟩

theorem roundsTo_roundWithAccuracy {m : Nat} {e : Int} {accuracy : Accuracy} {x : ℚ}
    (h : Lies (.ofMantissaAndAccuracy m accuracy) x) (he : e ≤ roundingExponent m e) (s : Sign) :
    RoundsTo (s.apply 1 * (x * 2 ^ e)) (roundWithAccuracy .binary64 s m e accuracy) :=
  ⟨(roundWithAccuracy_spec h he s).1, isNearest_roundWithAccuracy h he s⟩

theorem apply_mul (s : Sign) (m : Nat) : ((s.apply m : ℤ) : ℚ) = s.apply 1 * m := by
  cases s <;> simp [Sign.apply]

theorem mul_two_pow_mul_zpow (m k : Nat) (e : Int) :
    ((m * 2 ^ k : ℕ) : ℚ) * 2 ^ (e - k : Int) = m * 2 ^ e := by
  rw [zpow_sub₀ two_ne_zero, zpow_natCast]
  push_cast
  field_simp

theorem decreaseExponent_eq (m : Nat) (e t : Int) :
    decreaseExponent m e t = (m * 2 ^ (e - t).toNat, e - (e - t).toNat) := by
  rw [decreaseExponent, Nat.shiftLeft_eq]

theorem log2_mul_two_pow {m : Nat} (hm : 0 < m) (k : Nat) : (m * 2 ^ k).log2 = m.log2 + k := by
  have hpos : 0 < m * 2 ^ k := Nat.mul_pos hm (Nat.two_pow_pos k)
  rw [Nat.log2_eq_iff (Nat.ne_of_gt hpos), pow_add, show m.log2 + k + 1 = m.log2 + 1 + k by omega,
    pow_add (n := k)]
  exact ⟨Nat.mul_le_mul_right _ (Nat.log2_self_le (Nat.ne_of_gt hm)),
    Nat.mul_lt_mul_of_pos_right Nat.lt_log2_self (Nat.two_pow_pos k)⟩

theorem roundsTo_round {m : Nat} (hm : 0 < m) (e : Int) (s : Sign) :
    RoundsTo (s.apply m * 2 ^ e) (round .binary64 s m e) := by
  have hround : round .binary64 s m e = roundWithAccuracy .binary64 s
      (m * 2 ^ (e - roundingExponent m e).toNat) (e - (e - roundingExponent m e).toNat) .exact := by
    change roundWithAccuracy .binary64 s (decreaseExponent m e (roundingExponent m e)).1
      (decreaseExponent m e (roundingExponent m e)).2 .exact = _
    rw [decreaseExponent_eq]
  obtain ⟨k, hk⟩ : ∃ k, k = (e - roundingExponent m e).toNat := ⟨_, rfl⟩
  rw [← hk] at hround
  have hsame : roundingExponent (m * 2 ^ k) (e - k) = roundingExponent m e := by
    rw [roundingExponent_eq, roundingExponent_eq, log2_mul_two_pow hm]
    congr 1
    omega
  have hle : e - k ≤ roundingExponent (m * 2 ^ k) (e - k) := by
    rw [hsame]
    omega
  have hexact : Lies (.ofMantissaAndAccuracy (m * 2 ^ k) .exact) ((m * 2 ^ k : ℕ) : ℚ) := rfl
  have hrounds := roundsTo_roundWithAccuracy hexact hle s
  rwa [mul_two_pow_mul_zpow, ← mul_assoc, ← apply_mul, ← hround] at hrounds

theorem roundsTo_normalize (n e : ℤ) (s : Sign) :
    RoundsTo (n * 2 ^ e) (UnpackedFloat.normalize .binary64 n e s) := by
  unfold UnpackedFloat.normalize
  rcases lt_trichotomy n 0 with hlt | rfl | hgt
  · have hround := roundsTo_round (m := (-n).toNat) (by omega) e .negative
    have hcast : (Sign.negative.apply (-n).toNat : ℤ) = n := by
      simp only [Sign.apply]
      omega
    rw [Int.compare_eq_lt.mpr hlt]
    rwa [hcast] at hround
  · have hzero := RoundsTo.self (.zero s)
    simpa [amount] using hzero
  · have hround := roundsTo_round (m := n.toNat) (by omega) e .positive
    have hcast : (Sign.positive.apply n.toNat : ℤ) = n := by
      simp only [Sign.apply]
      omega
    rw [Int.compare_eq_gt.mpr hgt]
    rwa [hcast] at hround

/-- Significands at a common exponent stand for the same numbers as before. -/
theorem apply_decreaseExponent (s : Sign) (m : Nat) {e t : Int} (h : t ≤ e) :
    ((s.apply (decreaseExponent m e t).1 : ℤ) : ℚ) * 2 ^ t = s.apply m * 2 ^ e := by
  have ht : e - ((e - t).toNat : Int) = t := by omega
  have hshift := mul_two_pow_mul_zpow m (e - t).toNat e
  rw [ht] at hshift
  rw [decreaseExponent_eq, apply_mul, apply_mul s m, mul_assoc, mul_assoc, hshift]

theorem roundsTo_add (hu : IsRounded u) (hv : IsRounded v) :
    RoundsTo (amount u + amount v) (UnpackedFloat.add .binary64 u v) := by
  have hzero (s : Sign) : amount (.zero s) = 0 := rfl
  cases hu with
  | zero s =>
    cases hv with
    | zero s' =>
      rw [hzero, hzero, add_zero]
      cases s <;> cases s' <;> exact .self (.zero _)
    | finite s' hm' h' =>
      rw [hzero, zero_add]
      exact .self (.finite s' hm' h')
  | @finite s m e hm h =>
    cases hv with
    | zero s' =>
      rw [hzero, add_zero]
      exact .self (.finite s hm h)
    | @finite s' m' e' hm' h' =>
      -- at the lesser exponent both significands are whole, so the sum is exact until it is rounded
      have hnormalize := roundsTo_normalize (s.apply (decreaseExponent m e (min e e')).1 +
        s'.apply (decreaseExponent m' e' (min e e')).1) (min e e') .positive
      rw [Int.cast_add, add_mul, apply_decreaseExponent s m (min_le_left e e'),
        apply_decreaseExponent s' m' (min_le_right e e')] at hnormalize
      exact hnormalize

theorem isRounded_neg (h : IsRounded u) : IsRounded u.neg := by
  cases h with
  | zero s => exact .zero _
  | finite s hm h => exact .finite _ hm h

theorem apply_neg (s : Sign) (m : Nat) : (-s).apply (m : ℤ) = -s.apply (m : ℤ) := by
  cases s with
  | negative => exact (neg_neg (m : ℤ)).symm
  | positive => rfl

theorem amount_neg_eq (u : UnpackedFloat) : amount u.neg = -amount u := by
  cases u with
  | finite s m e hm => simp only [amount, UnpackedFloat.neg, apply_neg, Int.cast_neg, neg_mul]
  | _ => exact neg_zero.symm

theorem sub_eq_add_neg_double (u v : UnpackedFloat) :
    UnpackedFloat.sub .binary64 u v = UnpackedFloat.add .binary64 u v.neg := by
  rcases u with s | _ | s | ⟨s, m, e, hm⟩ <;> rcases v with s' | _ | s' | ⟨s', m', e', hm'⟩ <;>
    try rfl
  simp only [UnpackedFloat.sub, UnpackedFloat.add, UnpackedFloat.neg, apply_neg, sub_eq_add_neg]

theorem roundsTo_sub (hu : IsRounded u) (hv : IsRounded v) :
    RoundsTo (amount u - amount v) (UnpackedFloat.sub .binary64 u v) := by
  rw [sub_eq_add_neg_double, sub_eq_add_neg, ← amount_neg_eq]
  exact roundsTo_add hu (isRounded_neg hv)

end Operations

section Doubles

variable {x y : Float} {q r : ℚ}

/-- A double is the rounded value of a number: nearest on the grid if it is finite, or else infinite
with the sign of the number. -/
structure Rounds (q : ℚ) (x : Float) : Prop where
  nearest : x.isFinite = true → IsNearest q (value x)
  infinite : x.isFinite = false → x.toModel.unpack = .infinity (signOf (decide (q < 0)))

theorem IsNearest.neg_iff (h : IsNearest q r) (hr : r ≠ 0) : q < 0 ↔ r < 0 := by
  constructor
  · intro hq
    exact lt_of_le_of_ne (h.ge_of_ge .zero hq.le) hr
  · intro hr
    by_contra hq
    exact absurd (h.le_of_le .zero (not_lt.mp hq)) (not_le.mpr hr)

theorem unpack_pack_zero (s : Sign) : (Float.Model.pack (.zero s)).unpack = .zero s := by
  cases s <;> rfl

theorem rounds_pack {u : UnpackedFloat} (h : RoundsTo q u) :
    Rounds q (.ofModel (Float.Model.pack u)) := by
  obtain ⟨hrounded, hnearest⟩ := h
  have hvalue : value (.ofModel (Float.Model.pack u)) = amount (Float.Model.pack u).unpack := rfl
  have hfinite : (Float.ofModel (Float.Model.pack u)).isFinite =
      (Float.Model.pack u).unpack.isFinite := rfl
  cases hrounded with
  | zero s =>
    refine ⟨fun _ => ?_, ?_⟩
    · rw [hvalue, unpack_pack_zero]
      exact hnearest
    · rw [hfinite, unpack_pack_zero]
      nofun
  | @finite s m e hm h =>
    by_cases hle : e ≤ greatestExponent
    · have hunpack : (Float.Model.pack (.finite s m e hm)).unpack = _ := unpack_pack_finite h hle
      refine ⟨fun _ => ?_, ?_⟩
      · rw [hvalue, hunpack]
        exact hnearest
      · rw [hfinite, hunpack]
        nofun
    · have hunpack : (Float.Model.pack (.finite s m e hm)).unpack = _ :=
        unpack_pack_infinite (not_le.mp hle)
      refine ⟨?_, fun _ => ?_⟩
      · rw [hfinite, hunpack]
        nofun
      · change (Float.Model.pack (.finite s m e hm)).unpack = _
        rw [hunpack]
        cases s with
        | positive =>
          have hq := (hnearest.neg_iff amount_pos.ne').not.mpr (not_lt.mpr amount_pos.le)
          rw [decide_eq_false hq]
          rfl
        | negative =>
          have hq := (hnearest.neg_iff amount_neg.ne).mpr amount_neg
          rw [decide_eq_true hq]
          rfl

theorem rounds_add (hx : x.isFinite = true) (hy : y.isFinite = true) :
    Rounds (value x + value y) (x + y) :=
  rounds_pack (roundsTo_add (isRounded_of_isFinite hx) (isRounded_of_isFinite hy))

theorem rounds_sub (hx : x.isFinite = true) (hy : y.isFinite = true) :
    Rounds (value x - value y) (x - y) :=
  rounds_pack (roundsTo_sub (isRounded_of_isFinite hx) (isRounded_of_isFinite hy))

end Doubles

end ClusterBalance.Decimal
