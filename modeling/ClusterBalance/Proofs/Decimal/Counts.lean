import ClusterBalance.Proofs.Decimal.Bounded
import ClusterBalance.Proofs.Decimal.Zeros

/-! Natural numbers up to `2 ^ 53` as doubles. Main statement: they have doubles of their own, and
the sum of these stands for their sum as long as that is not greater either. -/

namespace ClusterBalance.Decimal

open Float.Model Float.Model.UnpackedFloat

variable {x y : Float} {m n : Nat}

/-- A finite double that stands for a natural number. -/
structure Counts (n : Nat) (x : Float) : Prop where
  finite : x.isFinite = true
  number : value x = n

section Grid

theorem onGrid_int {k : ℤ} (h : k.natAbs ≤ 2 ^ 53) : OnGrid k := by
  have hless {k : ℤ} (h : k.natAbs < 2 ^ 53) : OnGrid k :=
    ⟨k, 0, by rw [zpow_zero, mul_one], h, by decide⟩
  rcases Nat.lt_or_eq_of_le h with hlt | heq
  · exact hless hlt
  · -- the greatest number is twice another
    obtain ⟨j, rfl⟩ : ∃ j, k = 2 * j := ⟨k / 2, by omega⟩
    have hdouble := (hless (k := j) (by omega)).double
    exact_mod_cast hdouble

/-- A number of the grid is rounded to itself. -/
theorem Rounds.value_eq {q : ℚ} (h : Rounds q x) (hfinite : x.isFinite = true) (hq : OnGrid q) :
    value x = q :=
  (h.nearest hfinite).eq_of_onGrid hq

theorem exact_pack {u : UnpackedFloat} {k : ℤ} (h : RoundsTo k u) (hk : k.natAbs ≤ 2 ^ 53) :
    (Float.ofModel (Float.Model.pack u)).isFinite = true ∧
      value (.ofModel (Float.Model.pack u)) = k := by
  have habs : |(k : ℚ)| ≤ 2 ^ 53 := by
    rw [← Int.cast_abs, Int.abs_eq_natAbs]
    exact_mod_cast hk
  have hfinite := (isFinite_pack_two_pow h habs (by decide)).1
  exact ⟨hfinite, (rounds_pack h).value_eq hfinite (onGrid_int hk)⟩

theorem exact_add {k : ℤ} (hx : x.isFinite = true) (hy : y.isFinite = true)
    (h : value x + value y = k) (hk : k.natAbs ≤ 2 ^ 53) :
    (x + y).isFinite = true ∧ value (x + y) = k := by
  have hrounds := roundsTo_add (isRounded_of_isFinite hx) (isRounded_of_isFinite hy)
  change RoundsTo (value x + value y) _ at hrounds
  rw [h] at hrounds
  exact exact_pack hrounds hk

theorem exact_sub {k : ℤ} (hx : x.isFinite = true) (hy : y.isFinite = true)
    (h : value x - value y = k) (hk : k.natAbs ≤ 2 ^ 53) :
    (x - y).isFinite = true ∧ value (x - y) = k := by
  have hrounds := roundsTo_sub (isRounded_of_isFinite hx) (isRounded_of_isFinite hy)
  change RoundsTo (value x - value y) _ at hrounds
  rw [h] at hrounds
  exact exact_pack hrounds hk

end Grid

section Nearest

variable {num den : Nat}

theorem value_ofMagnitude {significand step : Nat} (hpos : 0 < significand)
    (hlt : significand < 2 * hiddenBit) (hstep : step = 0 ∨ hiddenBit ≤ significand)
    (hfinite : step * hiddenBit + significand < infinityBits) :
    (ofMagnitude false (step * hiddenBit + significand)).isFinite = true ∧
      value (ofMagnitude false (step * hiddenBit + significand)) =
        significand * 2 ^ (leastExponent + (step : ℕ)) := by
  constructor
  · refine isFinite_of_isInf hfinite.le ?_
    rw [← Bool.not_eq_true, isInf_ofMagnitude _ hfinite.le]
    exact hfinite.ne
  obtain ⟨f, k, hf, hvalue, hbits, hflt, hk⟩ :=
    exists_valueOf_eq_finite false (show 0 < step * hiddenBit + significand by omega) hfinite
  -- a magnitude has its significand and its step from one division only
  have hsame : k = step ∧ f = significand := by
    unfold hiddenBit at *
    omega
  obtain ⟨rfl, rfl⟩ := hsame
  rw [value, unpack_ofMagnitude _ hfinite.le, hvalue]
  simp [amount, signOf, Sign.apply]

/-- A quotient that has a double is rounded to it. -/
theorem value_nearest (significand step : Nat) (hnum : 0 < num) (hden : 0 < den)
    (hpos : 0 < significand) (hlt : significand < 2 * hiddenBit)
    (hstep : step = 0 ∨ hiddenBit ≤ significand)
    (hfinite : step * hiddenBit + significand < infinityBits)
    (heq : (num / den : ℚ) = significand * 2 ^ (leastExponent + (step : ℕ))) :
    (nearest false num den).isFinite = true ∧ value (nearest false num den) = num / den := by
  have hunit : (0 : ℚ) < 2 ^ (leastExponent + (step : ℕ) - 2) := by positivity
  have hquarters : (0 : ℚ) < quartersBelow significand (leastExponent + (step : ℕ)) := by
    unfold quartersBelow
    split <;> norm_num
  have hexact : (num / den : ℚ) = 4 * significand * 2 ^ (leastExponent + (step : ℕ) - 2) := by
    rw [heq, two_zpow_eq_quarters]
    ring
  have hlow : (4 * significand - quartersBelow significand (leastExponent + (step : ℕ))) *
      (2 : ℚ) ^ (leastExponent + (step : ℕ) - 2) < num / den := by
    rw [hexact]
    exact mul_lt_mul_of_pos_right (by linarith) hunit
  have hhigh : (num / den : ℚ) <
      (4 * significand + 2) * 2 ^ (leastExponent + (step : ℕ) - 2) := by
    rw [hexact]
    exact mul_lt_mul_of_pos_right (by linarith) hunit
  rw [nearest_eq hnum hden hlt hstep hfinite false ⟨hlow.le, hhigh.le, fun _ => ⟨hlow, hhigh⟩⟩,
    heq]
  exact value_ofMagnitude hpos hlt hstep hfinite

theorem nearestRatio_natCast (n : Nat) : nearestRatio n 1 = nearest false n 1 := by
  rw [nearestRatio, decide_eq_false (by omega), decide_eq_false (by omega)]
  rfl

/-- The double of a natural number is not below zero. -/
theorem notNegative_nearestRatio (n : Nat) : NotNegative (nearestRatio n 1) := by
  obtain ⟨m, hm, heq⟩ := exists_nearest_eq_ofMagnitude false n 1
  have hle : ofMagnitude false 0 ≤ ofMagnitude false m :=
    (ofMagnitude_le_iff (Nat.zero_le _) hm).mpr (Nat.zero_le _)
  rw [nearestRatio_natCast, heq]
  intro hlt
  have hzero : ofMagnitude false 0 = 0.0 := by decide +kernel
  rw [hzero, le_iff_place isNaN_zero (isNaN_of_lt hlt).1] at hle
  rw [lt_iff_place (isNaN_of_lt hlt).1 isNaN_zero] at hlt
  exact absurd hle (not_le.mpr hlt)

/-- A natural number up to `2 ^ 53` has a double of its own. -/
theorem counts_nearestRatio (h : n ≤ 2 ^ 53) : Counts n (nearestRatio n 1) := by
  rw [nearestRatio_natCast]
  suffices hvalue : (nearest false n 1).isFinite = true ∧ value (nearest false n 1) = n / (1 : ℕ) by
    obtain ⟨hfinite, hvalue⟩ := hvalue
    exact ⟨hfinite, by rw [hvalue, Nat.cast_one, div_one]⟩
  rcases Nat.eq_zero_or_pos n with rfl | hpos
  · have hzero : nearest false 0 1 = 0.0 := by decide +kernel
    rw [hzero, value_zero]
    exact ⟨isFinite_zero, by norm_num⟩
  have hpow : hiddenBit = 2 ^ 52 := rfl
  rcases Nat.lt_or_eq_of_le h with hlt | rfl
  · have hlog : n.log2 ≤ 52 := Nat.le_of_lt_succ ((Nat.log2_lt hpos.ne').mpr hlt)
    have hlow : 2 ^ n.log2 ≤ n := Nat.log2_self_le hpos.ne'
    have hhigh : n < 2 ^ (n.log2 + 1) := Nat.lt_log2_self
    have hshift : 2 ^ n.log2 * 2 ^ (52 - n.log2) = 2 ^ 52 := by
      rw [← Nat.pow_add]
      congr 1
      omega
    have hsignificand : hiddenBit ≤ n * 2 ^ (52 - n.log2) := by
      rw [hpow, ← hshift]
      exact Nat.mul_le_mul_right _ hlow
    have hless : n * 2 ^ (52 - n.log2) < 2 * hiddenBit := by
      calc n * 2 ^ (52 - n.log2) < 2 ^ (n.log2 + 1) * 2 ^ (52 - n.log2) :=
            Nat.mul_lt_mul_of_pos_right hhigh (Nat.two_pow_pos _)
        _ = 2 * hiddenBit := by rw [Nat.pow_succ, hpow, ← hshift]; ring
    refine value_nearest _ (n.log2 + 1022) hpos Nat.one_pos (by omega) hless
      (.inr hsignificand) ?_ ?_
    · have hmul := Nat.mul_le_mul_right hiddenBit (show n.log2 + 1022 ≤ 1074 by omega)
      unfold infinityBits numFields hiddenBit at *
      omega
    · have hexponent : leastExponent + ((n.log2 + 1022 : ℕ) : ℤ) = -((52 - n.log2 : ℕ) : ℤ) := by
        unfold leastExponent
        omega
      rw [hexponent, zpow_neg, zpow_natCast]
      push_cast
      field_simp
  · refine value_nearest hiddenBit 1075 hpos Nat.one_pos (by decide)
      (by decide) (.inr le_rfl) (by decide) ?_
    norm_num [hiddenBit, leastExponent]

end Nearest

section Sum

theorem Counts.add (hx : Counts m x) (hy : Counts n y) (h : m + n ≤ 2 ^ 53) :
    Counts (m + n) (x + y) := by
  have hsum : value x + value y = ((m + n : ℕ) : ℤ) := by
    rw [hx.number, hy.number]
    push_cast
    rfl
  obtain ⟨hfinite, hvalue⟩ := exact_add hx.finite hy.finite hsum (by omega)
  exact ⟨hfinite, by exact_mod_cast hvalue⟩

/-- Taking off the sum of two numbers from the one and adding the other leaves nothing. -/
theorem Counts.sub_add_beq_zero {s : Float} (hx : Counts m x) (hy : Counts n y)
    (hs : Counts (m + n) s) (h : m + n ≤ 2 ^ 53) : (x - s + y == 0.0) = true := by
  have hdiff : value x - value s = ((-n : ℤ) : ℚ) := by
    rw [hx.number, hs.number]
    push_cast
    ring
  obtain ⟨hfinite, hvalue⟩ := exact_sub hx.finite hs.finite hdiff (by omega)
  have hnone : value (x - s) + value y = (0 : ℤ) := by
    rw [hvalue, hy.number]
    push_cast
    ring
  obtain ⟨hend, hzero⟩ := exact_add hfinite hy.finite hnone (by omega)
  rw [beq_iff_place (isNaN_of_isFinite hend) isNaN_zero, place_of_isFinite hend,
    place_of_isFinite isFinite_zero, value_zero, hzero, Int.cast_zero]

/-- A running sum that stands for a natural number, with nothing rounded off. -/
structure RunningTotal.Counts (n : Nat) (t : RunningTotal) : Prop where
  total : Decimal.Counts n t.total
  lost : (t.lost == 0.0) = true

theorem RunningTotal.Counts.add {t : RunningTotal} (ht : RunningTotal.Counts m t)
    (hx : Decimal.Counts n x) (h : m + n ≤ 2 ^ 53) :
    RunningTotal.Counts (m + n) (t.add x) := by
  refine ⟨ht.total.add hx h, ?_⟩
  rw [RunningTotal.lost_add]
  apply zero_add_zero ht.lost
  have htotal := ht.total.add hx h
  split
  · exact ht.total.sub_add_beq_zero hx htotal h
  · exact hx.sub_add_beq_zero ht.total (Nat.add_comm m n ▸ htotal) (Nat.add_comm m n ▸ h)

theorem RunningTotal.Counts.foldl {xs : List Float} {ns : List Nat} {t : RunningTotal}
    (ht : RunningTotal.Counts m t) (h : List.Forall₂ Decimal.Counts ns xs)
    (hle : m + ns.sum ≤ 2 ^ 53) :
    RunningTotal.Counts (m + ns.sum) (xs.foldl RunningTotal.add t) := by
  induction h generalizing m t with
  | nil => exact ht
  | @cons n x ns xs hx _ ih =>
    rw [List.sum_cons, ← Nat.add_assoc] at hle ⊢
    exact ih (ht.add hx (by omega)) hle

theorem RunningTotal.Counts.result {t : RunningTotal} (ht : RunningTotal.Counts n t) :
    Decimal.Counts n t.result := by
  rw [ClusterBalance.RunningTotal.result, bne, ht.lost]
  exact ht.total

/-- The sum of doubles that stand for natural numbers stands for their sum. -/
theorem counts_compensatedSum {xs : List Float} {ns : List Nat}
    (h : List.Forall₂ Counts ns xs) (hle : ns.sum ≤ 2 ^ 53) :
    Counts ns.sum (compensatedSum xs) := by
  have hzero : Counts 0 0.0 := ⟨isFinite_zero, by rw [value_zero, Nat.cast_zero]⟩
  cases h with
  | nil => exact hzero
  | @cons n x ns xs hx hxs =>
    rw [List.sum_cons] at hle ⊢
    have hstart : RunningTotal.Counts n ⟨x + 0.0, 0.0⟩ :=
      ⟨hx.add hzero (by omega), zero_beq_zero⟩
    exact (hstart.foldl hxs hle).result

end Sum

end ClusterBalance.Decimal
