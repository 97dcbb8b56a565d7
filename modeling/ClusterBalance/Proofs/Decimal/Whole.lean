import ClusterBalance.Proofs.Decimal.Magnitude

/-! Whole numbers as doubles. Main statements: a whole number of at most 1023 binary digits has a
double, and the double of a whole number lies between zero and one only for these two numbers. -/

namespace ClusterBalance.Decimal

variable {n : Nat}

theorem le_roundDiv {num den q : Nat} (hden : 0 < den) (h : q * den ≤ num) :
    q ≤ roundDiv num den := by
  have hq : q ≤ num / den := (Nat.le_div_iff_mul_le hden).mpr h
  simp only [roundDiv]
  split <;> omega

theorem roundDiv_le {num den q : Nat} (hden : 0 < den) (h : num ≤ q * den) :
    roundDiv num den ≤ q := by
  rcases Nat.eq_or_lt_of_le h with rfl | hlt
  · simp [roundDiv, Nat.mul_div_cancel _ hden, Nat.ne_of_lt hden]
  · have hq : num / den < q := (Nat.div_lt_iff_lt_mul hden).mpr hlt
    simp only [roundDiv]
    split <;> omega

/-- The unit of a whole number leaves it 53 binary digits. -/
theorem unitExponent_whole (h : 0 < n) : unitExponent n 1 = n.log2 - 52 := by
  have hlow : 2 ^ n.log2 ≤ n := Nat.log2_self_le (Nat.ne_of_gt h)
  have hnot : ¬n <<< (53 - n.log2) < (1 <<< (n.log2 - 53)) * (2 * hiddenBit) := by
    have hpow : 2 * hiddenBit = 2 ^ 53 := rfl
    rw [hpow, Nat.shiftLeft_eq, Nat.shiftLeft_eq, Nat.one_mul, ← Nat.pow_add, Nat.not_lt]
    calc 2 ^ (n.log2 - 53 + 53) = 2 ^ n.log2 * 2 ^ (53 - n.log2) := by
          rw [← Nat.pow_add]
          congr 1
          omega
      _ ≤ n * 2 ^ (53 - n.log2) := Nat.mul_le_mul_right _ hlow
  have hguess : ((n.log2 : Int) - (1 : Nat).log2 - 53) = n.log2 - 53 := by
    rw [show (1 : Nat).log2 = 0 from rfl]
    omega
  simp only [unitExponent, scaleBinary, hguess]
  rw [show (-((n.log2 : Int) - 53)).toNat = 53 - n.log2 by omega,
    show (-(-((n.log2 : Int) - 53))).toNat = n.log2 - 53 by omega, if_neg hnot]
  unfold leastExponent
  omega

/-- The magnitude of a whole number counts its binary digits, up to the next power of two. -/
theorem exists_nearest_eq (h : 0 < n) (negative : Bool) :
    ∃ m, nearest negative n 1 = ofMagnitude negative (min m infinityBits) ∧
      (n.log2 + 1023) * hiddenBit ≤ m ∧ m ≤ (n.log2 + 1024) * hiddenBit := by
  have hlow : 2 ^ n.log2 ≤ n := Nat.log2_self_le (Nat.ne_of_gt h)
  have hhigh : n < 2 ^ (n.log2 + 1) := Nat.lt_log2_self
  have hpow : hiddenBit = 2 ^ 52 := rfl
  have hden : 0 < 1 <<< (n.log2 - 52) := by
    rw [Nat.one_shiftLeft]
    exact Nat.two_pow_pos _
  have hle : hiddenBit ≤ roundDiv (n <<< (52 - n.log2)) (1 <<< (n.log2 - 52)) := by
    refine le_roundDiv hden ?_
    rw [hpow, Nat.shiftLeft_eq, Nat.shiftLeft_eq, Nat.one_mul, ← Nat.pow_add]
    calc 2 ^ (52 + (n.log2 - 52)) = 2 ^ n.log2 * 2 ^ (52 - n.log2) := by
          rw [← Nat.pow_add]
          congr 1
          omega
      _ ≤ n * 2 ^ (52 - n.log2) := Nat.mul_le_mul_right _ hlow
  have hge : roundDiv (n <<< (52 - n.log2)) (1 <<< (n.log2 - 52)) ≤ 2 * hiddenBit := by
    refine roundDiv_le hden ?_
    rw [show 2 * hiddenBit = 2 ^ 53 from rfl, Nat.shiftLeft_eq, Nat.shiftLeft_eq, Nat.one_mul,
      ← Nat.pow_add]
    calc n * 2 ^ (52 - n.log2) ≤ 2 ^ (n.log2 + 1) * 2 ^ (52 - n.log2) :=
          Nat.mul_le_mul_right _ (Nat.le_of_lt hhigh)
      _ = 2 ^ (53 + (n.log2 - 52)) := by
          rw [← Nat.pow_add]
          congr 1
          omega
  refine ⟨(n.log2 + 1022) * hiddenBit + roundDiv (n <<< (52 - n.log2)) (1 <<< (n.log2 - 52)),
    ?_, ?_, ?_⟩
  · simp only [nearest, if_neg (Nat.ne_of_gt h), unitExponent_whole h, scaleBinary]
    rw [show (-((n.log2 : Int) - 52)).toNat = 52 - n.log2 by omega,
      show (-(-((n.log2 : Int) - 52))).toNat = n.log2 - 52 by omega,
      show ((n.log2 : Int) - 52 - leastExponent).toNat = n.log2 + 1022 by
        unfold leastExponent
        omega]
  · rw [show n.log2 + 1023 = n.log2 + 1022 + 1 from rfl, Nat.succ_mul]
    omega
  · rw [show n.log2 + 1024 = n.log2 + 1022 + 2 from rfl, Nat.add_mul (n.log2 + 1022) 2]
    omega

theorem exists_nearestRatio_eq {n : Int} (h : n ≠ 0) :
    ∃ m, nearestRatio n 1 = ofMagnitude (decide (n < 0)) (min m infinityBits) ∧
      (n.natAbs.log2 + 1023) * hiddenBit ≤ m ∧ m ≤ (n.natAbs.log2 + 1024) * hiddenBit := by
  have hsign : (decide (n < 0) != decide ((1 : Int) < 0)) = decide (n < 0) := by
    cases decide (n < 0) <;> rfl
  rw [nearestRatio, hsign]
  exact exists_nearest_eq (Int.natAbs_pos.mpr h) (decide (n < 0))

/-- A whole number of at most 1023 binary digits has a double. -/
theorem exists_ofWhole?_eq_some {n : Int} (h : n.natAbs.log2 < 1023) :
    ∃ x, ofWhole? n = some x := by
  by_cases hzero : n = 0
  · subst hzero
    exact ⟨0.0, by decide +kernel⟩
  obtain ⟨m, heq, -, hm⟩ := exists_nearestRatio_eq hzero
  have hlt : m < infinityBits := by
    calc m ≤ (n.natAbs.log2 + 1024) * hiddenBit := hm
      _ ≤ 2046 * hiddenBit := Nat.mul_le_mul_right _ (by omega)
      _ < infinityBits := by decide
  have hfinite : ¬(nearestRatio n 1).isInf = true := by
    rw [heq, Nat.min_eq_left (Nat.le_of_lt hlt), isInf_ofMagnitude _ (Nat.le_of_lt hlt)]
    exact Nat.ne_of_lt hlt
  exact ⟨nearestRatio n 1, if_neg hfinite⟩

theorem nearestRatio_of_ofWhole? {n : Int} {x : Float} (h : ofWhole? n = some x) :
    nearestRatio n 1 = x := by
  simp only [ofWhole?] at h
  split at h
  · cases h
  · exact Option.some.inj h

/-- The double of a whole number lies between zero and one only for these two numbers. -/
theorem unit_ofWhole?_iff {n : Int} {x : Float} (h : ofWhole? n = some x) :
    0.0 ≤ x ∧ x ≤ 1.0 ↔ 0 ≤ n ∧ n ≤ 1 := by
  by_cases hzero : n = 0
  · subst hzero
    have hx : some (0.0 : Float) = some x := h ▸ (by decide +kernel)
    cases hx
    exact iff_of_true (by decide +kernel) (by decide)
  by_cases hone : n = 1
  · subst hone
    have hx : some (1.0 : Float) = some x := h ▸ (by decide +kernel)
    cases hx
    exact iff_of_true (by decide +kernel) (by decide)
  have hx := nearestRatio_of_ofWhole? h
  obtain ⟨m, heq, hm, -⟩ := exists_nearestRatio_eq hzero
  rw [hx] at heq
  have hle : min m infinityBits ≤ infinityBits := Nat.min_le_right ..
  have hinf : infinityBits = 2047 * hiddenBit := rfl
  have hbit : 0 < hiddenBit := by decide
  by_cases hneg : n < 0
  · -- a negative number is not zero or more
    have hpos : 0 < min m infinityBits := by
      have := Nat.mul_le_mul_right hiddenBit (Nat.le_add_left 1023 n.natAbs.log2)
      omega
    rw [decide_eq_true hneg] at heq
    refine iff_of_false (fun hunit => not_zero_le_ofMagnitude hpos hle ?_) (by omega)
    rw [← heq]
    exact hunit.1
  · -- a number from two on is not one or less
    have hlog : 1 ≤ n.natAbs.log2 := (Nat.le_log2 (by omega)).mpr (by omega)
    have hgt : 1023 * hiddenBit < min m infinityBits := by
      have := Nat.mul_le_mul_right hiddenBit (Nat.add_le_add_right hlog 1023)
      omega
    have hfloat : (1.0 : Float) = ofMagnitude false (1023 * hiddenBit) := by decide +kernel
    rw [decide_eq_false hneg] at heq
    refine iff_of_false (fun hunit => ?_) (by omega)
    have hunit := hunit.2
    rw [heq, hfloat, ofMagnitude_le_iff hle (by decide)] at hunit
    omega

end ClusterBalance.Decimal
