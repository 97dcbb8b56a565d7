import ClusterBalance.Proofs.Decimal.Near

/-! What doubles stand for, as rational numbers, and the grid of numbers that they would stand for
if their exponents had no upper bound. Main statements: what a finite double stands for is on the
grid, and so is the difference of two numbers of the grid neither of which is more than twice the
other. -/

namespace ClusterBalance.Decimal

open Float.Model Float.Model.UnpackedFloat

/-- The number that an unpacked double stands for; zero, if it stands for none. -/
def amount : UnpackedFloat → ℚ
  | .finite s m e _ => s.apply m * 2 ^ e
  | _ => 0

/-- The number that a double stands for; zero, if it stands for none. -/
def value (x : Float) : ℚ := amount x.toModel.unpack

/-- A significand and an exponent as a finite double has them, but that the exponent may be too
great. -/
structure Canonical (significand : Nat) (exponent : Int) : Prop where
  lt : significand < 2 * hiddenBit
  least : leastExponent ≤ exponent
  normal : exponent = leastExponent ∨ hiddenBit ≤ significand

/-- An unpacked double that is a number as rounding leaves it. -/
inductive IsRounded : UnpackedFloat → Prop
  | zero (s : Sign) : IsRounded (.zero s)
  | finite (s : Sign) {m : Nat} {e : Int} (hm : 0 < m) (h : Canonical m e) :
      IsRounded (.finite s m e hm)

/-- The greatest exponent of a finite double. -/
def greatestExponent : Int := 971

/-- The numbers that a significand of 53 bits and an exponent from the least one on stand for. -/
def OnGrid (q : ℚ) : Prop :=
  ∃ (n e : ℤ), q = n * 2 ^ e ∧ n.natAbs < 2 * hiddenBit ∧ leastExponent ≤ e

namespace OnGrid

variable {p q : ℚ}

theorem zero : OnGrid 0 := ⟨0, leastExponent, by simp, by decide, Int.le_refl _⟩

theorem neg (h : OnGrid q) : OnGrid (-q) := by
  obtain ⟨n, e, rfl, hn, he⟩ := h
  exact ⟨-n, e, by push_cast; ring, by rwa [Int.natAbs_neg], he⟩

theorem double (h : OnGrid q) : OnGrid (2 * q) := by
  obtain ⟨n, e, rfl, hn, he⟩ := h
  refine ⟨n, e + 1, ?_, hn, by omega⟩
  rw [zpow_add_one₀ two_ne_zero]
  ring

theorem eq_mul_zpow {n e f : ℤ} (h : f ≤ e) :
    ((n : ℚ) * 2 ^ e) = ((n * 2 ^ (e - f).toNat : ℤ) : ℚ) * 2 ^ f := by
  obtain ⟨k, hk⟩ := Int.le.dest h
  rw [← hk, add_sub_cancel_left, Int.toNat_natCast, zpow_add₀ two_ne_zero, zpow_natCast]
  push_cast
  ring

/-- A multiple of a power of two is on the grid if it is at most a number of the grid with that
exponent. -/
theorem of_abs_le {n k e : ℤ} (hn : n.natAbs < 2 * hiddenBit) (he : leastExponent ≤ e)
    (h : |(k : ℚ) * 2 ^ e| ≤ |(n : ℚ) * 2 ^ e|) : OnGrid (k * 2 ^ e) := by
  have hpow : (0 : ℚ) < 2 ^ e := by positivity
  rw [abs_mul, abs_mul, mul_le_mul_iff_left₀ (abs_pos.mpr hpow.ne')] at h
  have hle : |k| ≤ |n| := by exact_mod_cast h
  rw [Int.abs_eq_natAbs, Int.abs_eq_natAbs] at hle
  exact ⟨k, e, rfl, by omega, he⟩

/-- The difference of numbers that differ by a factor of two at most has no more bits than they
have. -/
theorem sub_of_le_double (hp : OnGrid p) (hq : OnGrid q) (hpos : 0 ≤ p) (hle : p ≤ q)
    (hdouble : q ≤ 2 * p) : OnGrid (q - p) := by
  obtain ⟨m, e, rfl, hm, he⟩ := hp
  obtain ⟨n, f, rfl, hn, hf⟩ := hq
  have hnonneg : 0 ≤ (n : ℚ) * 2 ^ f - m * 2 ^ e := sub_nonneg.mpr hle
  rcases Int.le_total e f with h | h
  · -- the difference counts in the unit of the lesser number and is not greater than it
    have hsub : (n : ℚ) * 2 ^ f - m * 2 ^ e =
        ((n * 2 ^ (f - e).toNat - m : ℤ) : ℚ) * 2 ^ e := by
      rw [eq_mul_zpow h]
      push_cast
      ring
    rw [hsub] at hnonneg ⊢
    apply of_abs_le hm he
    rw [abs_of_nonneg hnonneg, abs_of_nonneg hpos, ← hsub]
    linarith
  · -- the difference counts in the unit of the greater number and is at most half of it
    have hsub : (n : ℚ) * 2 ^ f - m * 2 ^ e =
        ((n - m * 2 ^ (e - f).toNat : ℤ) : ℚ) * 2 ^ f := by
      rw [eq_mul_zpow h]
      push_cast
      ring
    rw [hsub] at hnonneg ⊢
    apply of_abs_le hn hf
    rw [abs_of_nonneg hnonneg, abs_of_nonneg (hpos.trans hle), ← hsub]
    linarith

end OnGrid

section Unpacked

variable {x y : Float} {s : Sign} {m : Nat} {e : Int} {hm : 0 < m}

theorem onGrid_amount {u : UnpackedFloat} (h : IsRounded u) : OnGrid (amount u) := by
  cases h with
  | zero s => exact .zero
  | @finite s m e hm h =>
    refine ⟨s.apply m, e, rfl, ?_, h.least⟩
    have hlt := h.lt
    cases s <;> simpa [Sign.apply] using hlt

/-- A finite double is a number as rounding leaves it, with an exponent that is not too great. -/
theorem unpack_of_isFinite (h : x.isFinite = true) :
    IsRounded x.toModel.unpack ∧
      ∀ s m e hm, x.toModel.unpack = .finite s m e hm → e ≤ greatestExponent := by
  obtain ⟨negative, m, hlt, rfl⟩ := exists_eq_ofMagnitude h
  rw [unpack_ofMagnitude _ (Nat.le_of_lt hlt)]
  rcases Nat.eq_zero_or_pos m with rfl | hpos
  · rw [valueOf_zero]
    exact ⟨.zero _, nofun⟩
  · obtain ⟨f, step, hf, hvalue, hm, hflt, hstep⟩ := exists_valueOf_eq_finite negative hpos hlt
    rw [hvalue]
    refine ⟨.finite _ hf ⟨hflt, by omega, by omega⟩, ?_⟩
    rintro _ _ _ _ ⟨⟩
    unfold leastExponent greatestExponent infinityBits numFields hiddenBit at *
    omega

theorem isRounded_of_isFinite (h : x.isFinite = true) : IsRounded x.toModel.unpack :=
  (unpack_of_isFinite h).1

theorem onGrid_value (h : x.isFinite = true) : OnGrid (value x) :=
  onGrid_amount (isRounded_of_isFinite h)

theorem exists_eq_signOf (s : Sign) : ∃ negative, s = signOf negative := by
  cases s
  · exact ⟨true, rfl⟩
  · exact ⟨false, rfl⟩

/-- What a double is packed from is what it is unpacked to, if its exponent is not too great. -/
theorem unpack_pack_finite (h : Canonical m e) (hle : e ≤ greatestExponent) :
    (Float.Model.pack (.finite s m e hm)).unpack = .finite s m e hm := by
  obtain ⟨negative, rfl⟩ := exists_eq_signOf s
  obtain ⟨hlt, hleast, hnormal⟩ := h
  obtain ⟨step, rfl⟩ := Int.le.dest hleast
  have hmagnitude : step * hiddenBit + m < infinityBits := by
    unfold leastExponent greatestExponent infinityBits numFields hiddenBit at *
    omega
  have hvalue : valueOf negative (step * hiddenBit + m) =
      .finite (signOf negative) m (leastExponent + (step : Nat)) hm := by
    obtain ⟨f, step', hf, hvalue, heq, hflt, hstep⟩ :=
      exists_valueOf_eq_finite negative (m := step * hiddenBit + m) (by omega) hmagnitude
    rw [hvalue]
    unfold hiddenBit at *
    obtain rfl : step' = step := by omega
    obtain rfl : f = m := by omega
    rfl
  change UnpackedFloat.unpack .binary64 (UnpackedFloat.pack .binary64 _) = _
  rw [← hvalue, pack_valueOf _ (Nat.le_of_lt hmagnitude),
    unpack_wordOf _ (Nat.le_of_lt hmagnitude)]

theorem unpack_pack_infinite (h : greatestExponent < e) :
    (Float.Model.pack (.finite s m e hm)).unpack = .infinity s := by
  obtain ⟨negative, rfl⟩ := exists_eq_signOf s
  have hbiased : 2 ^ Format.binary64.exponentBits ≤
      (e + Format.binary64.exponentBias +
        Format.binary64.mantissaBitsWithoutImplicit).toNat + 1 := by
    change 2048 ≤ (e + (1023 : Nat) + (52 : Nat)).toNat + 1
    unfold greatestExponent at h
    omega
  have hinfinite : UnpackedFloat.pack .binary64 (.finite (signOf negative) m e hm) =
      (wordOf negative infinityBits).toBitVec := by
    rw [UnpackedFloat.pack]
    simp only [if_pos hbiased]
    rw [← pack_valueOf _ (Nat.le_refl _), valueOf_infinityBits]
    rfl
  change UnpackedFloat.unpack .binary64 (UnpackedFloat.pack .binary64 _) = _
  rw [hinfinite, unpack_wordOf _ (Nat.le_refl _), valueOf_infinityBits]

end Unpacked

end ClusterBalance.Decimal
