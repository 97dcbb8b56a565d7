import Mathlib
import ClusterBalance.Decimal.Binary64

/-! The doubles in the order of their magnitudes. Main statements: a double that is made of a
magnitude stands for the number that this magnitude counts to, doubles that are not negative compare
as their magnitudes do, and a negative one lies below zero. -/

namespace ClusterBalance.Decimal

open Float.Model Float.Model.UnpackedFloat

/-- The sign of a double in the logic of doubles. -/
def signOf (negative : Bool) : Sign := if negative then .negative else .positive

/-- The word of a double, from its sign and the bits below it. -/
def wordOf (negative : Bool) (m : Nat) : UInt64 :=
  UInt64.ofNat (m + if negative then signBit else 0)

/-- What a magnitude counts to: zero, the numbers below the least normal one, the normal numbers,
and then infinity. -/
def valueOf (negative : Bool) (m : Nat) : UnpackedFloat :=
  if m = infinityBits then .infinity (signOf negative)
  else if hzero : m = 0 then .zero (signOf negative)
  else if m < hiddenBit then .finite (signOf negative) m leastExponent (Nat.pos_of_ne_zero hzero)
  else
    .finite (signOf negative) (hiddenBit + m % hiddenBit)
      (leastExponent - 1 + (m / hiddenBit : Nat)) (Nat.add_pos_left (by decide) _)

section Fields

variable (negative : Bool) {m : Nat}

theorem toNat_wordOf (h : m ≤ infinityBits) :
    (wordOf negative m).toNat = m + if negative then signBit else 0 := by
  have hm : m < 2 ^ 63 := Nat.lt_of_le_of_lt h (by decide)
  rw [wordOf, UInt64.toNat_ofNat', Nat.mod_eq_of_lt]
  cases negative <;> simp [signBit] <;> omega

theorem toNat_unpackMantissa (h : m ≤ infinityBits) :
    (@unpackMantissa .binary64 (wordOf negative m).toBitVec).toNat = m % hiddenBit := by
  change ((wordOf negative m).toNat >>> 0) % 2 ^ 52 = m % hiddenBit
  rw [toNat_wordOf _ h, Nat.shiftRight_zero]
  unfold signBit hiddenBit
  split <;> omega

theorem toNat_unpackExponent (h : m ≤ infinityBits) :
    (@unpackExponent .binary64 (wordOf negative m).toBitVec).toNat = m / hiddenBit := by
  have hm : m < 2 ^ 63 := Nat.lt_of_le_of_lt h (by decide)
  change ((wordOf negative m).toNat >>> 52) % 2 ^ 11 = m / hiddenBit
  rw [toNat_wordOf _ h, Nat.shiftRight_eq_div_pow]
  cases negative <;> simp [signBit, hiddenBit] <;> omega

theorem unpackSign_wordOf (h : m ≤ infinityBits) :
    @unpackSign .binary64 (wordOf negative m).toBitVec = (signOf negative).toBitVec := by
  have hm : m < 2 ^ 63 := Nat.lt_of_le_of_lt h (by decide)
  apply BitVec.eq_of_toNat_eq
  change ((wordOf negative m).toNat >>> 63) % 2 ^ 1 = _
  rw [toNat_wordOf _ h, Nat.shiftRight_eq_div_pow]
  cases negative <;> simp [signBit, signOf, Sign.toBitVec] <;> omega

theorem packComponents_wordOf {e : BitVec 11} {f : BitVec 52} (h : m ≤ infinityBits)
    (he : e.toNat = m / hiddenBit) (hf : f.toNat = m % hiddenBit) :
    packComponents .binary64 (signOf negative) e f = (wordOf negative m).toBitVec := by
  have hfields := Nat.div_add_mod m hiddenBit
  rw [← he, ← hf] at hfields
  apply BitVec.eq_of_toNat_eq
  change ((signOf negative).toBitVec ++ e ++ f).toNat = (wordOf negative m).toNat
  rw [toNat_wordOf _ h]
  rw [BitVec.toNat_append, BitVec.toNat_append, ← Nat.shiftLeft_add_eq_or_of_lt e.isLt,
    ← Nat.shiftLeft_add_eq_or_of_lt f.isLt, Nat.shiftLeft_eq, Nat.shiftLeft_eq]
  cases negative <;> simp [signBit, signOf, Sign.toBitVec, hiddenBit] at * <;> omega

theorem unpack_wordOf (h : m ≤ infinityBits) :
    UnpackedFloat.unpack .binary64 (wordOf negative m).toBitVec = valueOf negative m := by
  have he := toNat_unpackExponent negative h
  have hf := toNat_unpackMantissa negative h
  have hs := unpackSign_wordOf negative h
  have hsign : Sign.ofBitVec (signOf negative).toBitVec = signOf negative := by
    cases negative <;> rfl
  have he1 : @unpackExponent .binary64 (wordOf negative m).toBitVec = -1#_ ↔
      m / hiddenBit = 2047 := by rw [← he, ← BitVec.toNat_inj]; rfl
  have he0 : @unpackExponent .binary64 (wordOf negative m).toBitVec = 0#_ ↔
      m / hiddenBit = 0 := by rw [← he, ← BitVec.toNat_inj]; rfl
  have hf0 : @unpackMantissa .binary64 (wordOf negative m).toBitVec = 0#_ ↔
      m % hiddenBit = 0 := by rw [← hf, ← BitVec.toNat_inj]; rfl
  simp only [UnpackedFloat.unpack, valueOf, hs, hsign]
  by_cases hinf : m = infinityBits
  · subst hinf
    rw [if_pos (he1.mpr (by decide)), if_pos (hf0.mpr (by decide)), if_pos rfl]
  rw [if_neg (mt he1.mp (by unfold infinityBits numFields hiddenBit at *; omega)), if_neg hinf]
  by_cases hzero : m = 0
  · subst hzero
    rw [if_pos (he0.mpr (by decide)), dif_pos (hf0.mpr (by decide)), dif_pos rfl]
  rw [dif_neg hzero]
  by_cases hsmall : m < hiddenBit
  · rw [if_pos (he0.mpr (by unfold hiddenBit at *; omega)),
      dif_neg (mt hf0.mp (by unfold hiddenBit at *; omega)), if_pos hsmall]
    simp only [he, hf, UnpackedFloat.finite.injEq, true_and]
    rw [Nat.mod_eq_of_lt hsmall, Nat.div_eq_of_lt hsmall]
    exact ⟨rfl, rfl⟩
  · rw [if_neg (mt he0.mp (by unfold hiddenBit at *; omega)), if_neg hsmall]
    have happend : (1#1 ++ @unpackMantissa .binary64 (wordOf negative m).toBitVec).toNat =
        hiddenBit + m % hiddenBit := by
      rw [BitVec.toNat_append, ← Nat.shiftLeft_add_eq_or_of_lt (BitVec.isLt _), hf]
      rfl
    simp only [he, happend, UnpackedFloat.finite.injEq, true_and]
    change (m / hiddenBit : Nat) - (1075 : Int) = -1074 - 1 + (m / hiddenBit : Nat)
    omega

theorem pack_valueOf (h : m ≤ infinityBits) :
    UnpackedFloat.pack .binary64 (valueOf negative m) = (wordOf negative m).toBitVec := by
  unfold valueOf
  split
  next hinf =>
    subst hinf
    exact packComponents_wordOf _ h (by decide) (by decide)
  split
  next hinf hzero =>
    subst hzero
    exact packComponents_wordOf _ h (by decide) (by decide)
  split
  next hinf hzero hsmall =>
    have hlog : m.log2 < 52 := (Nat.log2_lt hzero).mpr hsmall
    have hbiased : (leastExponent + Format.binary64.exponentBias +
        Format.binary64.mantissaBitsWithoutImplicit).toNat = 1 := rfl
    rw [UnpackedFloat.pack]
    simp only [hbiased]
    rw [if_neg (by decide), if_neg (by change ¬m.log2 + 1 = 53; omega)]
    refine packComponents_wordOf _ h (Nat.div_eq_of_lt hsmall).symm ?_
    exact BitVec.toNat_ofNat ..
  next hinf hzero hsmall =>
    have hfraction : m % hiddenBit < 2 ^ 52 := Nat.mod_lt _ (by decide)
    have hpow : hiddenBit = 2 ^ 52 := rfl
    have hfield : 0 < m / hiddenBit ∧ m / hiddenBit < 2047 := by
      have hlt : m < 2047 * hiddenBit := Nat.lt_of_le_of_ne h hinf
      have hpos : 0 < hiddenBit := by decide
      exact ⟨Nat.div_pos (Nat.not_lt.mp hsmall) hpos, (Nat.div_lt_iff_lt_mul hpos).mpr hlt⟩
    have hlog : (hiddenBit + m % hiddenBit).log2 = 52 :=
      (Nat.log2_eq_iff (by omega)).mpr (by omega)
    have hbiased : (leastExponent - 1 + (m / hiddenBit : Nat) + Format.binary64.exponentBias +
        Format.binary64.mantissaBitsWithoutImplicit).toNat = m / hiddenBit := by
      change ((-1074 : Int) - 1 + (m / hiddenBit : Nat) + (1023 : Nat) + (52 : Nat)).toNat = _
      omega
    rw [UnpackedFloat.pack]
    simp only [hbiased, hlog]
    rw [if_neg (by change ¬2048 ≤ m / hiddenBit + 1; omega),
      if_pos (show 52 + 1 = Format.binary64.mantissaBits from rfl)]
    refine packComponents_wordOf _ h ?_ ?_
    · exact (BitVec.toNat_ofNat ..).trans (Nat.mod_eq_of_lt (by omega))
    · exact (BitVec.toNat_ofNat ..).trans (by omega)

theorem unpack_ofMagnitude (h : m ≤ infinityBits) :
    (ofMagnitude negative m).toModel.unpack = valueOf negative m := by
  change UnpackedFloat.unpack .binary64 (UnpackedFloat.pack .binary64
    (UnpackedFloat.unpack .binary64 (wordOf negative m).toBitVec)) = _
  rw [unpack_wordOf _ h, pack_valueOf _ h, unpack_wordOf _ h]

end Fields

section Order

variable (negative : Bool) {m m' : Nat}

theorem valueOf_infinityBits : valueOf negative infinityBits = .infinity (signOf negative) :=
  if_pos rfl

theorem valueOf_zero : valueOf negative 0 = .zero (signOf negative) := by
  cases negative <;> rfl

/-- A magnitude below infinity is the significand of its double, with the steps of the exponent
above it. -/
theorem exists_valueOf_eq_finite (hpos : 0 < m) (h : m < infinityBits) :
    ∃ significand step hsignificand,
      valueOf negative m =
        .finite (signOf negative) significand (leastExponent + (step : Nat)) hsignificand ∧
      m = step * hiddenBit + significand ∧ significand < 2 * hiddenBit ∧
        (step = 0 ∨ hiddenBit ≤ significand) := by
  unfold valueOf
  rw [if_neg (Nat.ne_of_lt h), dif_neg (Nat.ne_of_gt hpos)]
  by_cases hsmall : m < hiddenBit
  · rw [if_pos hsmall]
    exact ⟨m, 0, hpos, rfl, by omega, by omega, .inl rfl⟩
  · rw [if_neg hsmall]
    have hfield : 0 < m / hiddenBit := Nat.div_pos (Nat.not_lt.mp hsmall) (by decide)
    have hfraction : m % hiddenBit < hiddenBit := Nat.mod_lt _ (by decide)
    have hm := Nat.div_add_mod m hiddenBit
    obtain ⟨step, hstep⟩ : ∃ step, m / hiddenBit = step + 1 :=
      ⟨_, (Nat.succ_pred (Nat.ne_of_gt hfield)).symm⟩
    refine ⟨hiddenBit + m % hiddenBit, step, by omega, ?_, ?_, by omega, .inr (by omega)⟩
    · simp only [UnpackedFloat.finite.injEq, true_and]
      omega
    · rw [hstep, Nat.mul_comm, Nat.succ_mul] at hm
      omega

theorem isInf_ofMagnitude (h : m ≤ infinityBits) :
    (ofMagnitude negative m).isInf = true ↔ m = infinityBits := by
  change (ofMagnitude negative m).toModel.unpack.isInf = true ↔ _
  rw [unpack_ofMagnitude _ h]
  rcases Nat.eq_zero_or_pos m with rfl | hpos
  · simp [valueOf_zero, UnpackedFloat.isInf, infinityBits, numFields, hiddenBit]
  rcases Nat.eq_or_lt_of_le h with rfl | hlt
  · simp [valueOf_infinityBits, UnpackedFloat.isInf]
  · obtain ⟨significand, step, hsignificand, heq, -⟩ :=
      exists_valueOf_eq_finite negative hpos hlt
    simp [heq, UnpackedFloat.isInf, Nat.ne_of_lt hlt]

theorem le_iff_compare {x y : Float} :
    x ≤ y ↔ (x.toModel.unpack.compare y.toModel.unpack).any (·.isLE) = true := by
  change decide (x.toModel ≤ y.toModel) = true ↔ _
  exact decide_eq_true_iff

theorem compare_positive {f f' : Nat} {e e' : Int} {hf : 0 < f} {hf' : 0 < f'} :
    ((UnpackedFloat.finite .positive f e hf).compare (.finite .positive f' e' hf')).any (·.isLE) =
      true ↔ e < e' ∨ e = e' ∧ f ≤ f' := by
  simp [UnpackedFloat.compare, Ordering.isLE_then_iff_or, Int.compare_eq_lt, Nat.isLE_compare]

/-- Doubles that are not negative compare as their magnitudes do. -/
theorem ofMagnitude_le_iff (h : m ≤ infinityBits) (h' : m' ≤ infinityBits) :
    ofMagnitude false m ≤ ofMagnitude false m' ↔ m ≤ m' := by
  rw [le_iff_compare, unpack_ofMagnitude _ h, unpack_ofMagnitude _ h']
  rcases Nat.eq_or_lt_of_le h with rfl | hlt
  · rcases Nat.eq_or_lt_of_le h' with rfl | hlt'
    · rw [valueOf_infinityBits]
      decide
    rw [valueOf_infinityBits]
    rcases Nat.eq_zero_or_pos m' with rfl | hpos'
    · decide
    obtain ⟨f', k', hf', heq', -⟩ := exists_valueOf_eq_finite false hpos' hlt'
    simp [heq', UnpackedFloat.compare, signOf, hlt']
  rcases Nat.eq_or_lt_of_le h' with rfl | hlt'
  · rw [valueOf_infinityBits]
    rcases Nat.eq_zero_or_pos m with rfl | hpos
    · decide
    obtain ⟨f, k, hf, heq, -⟩ := exists_valueOf_eq_finite false hpos hlt
    simp [heq, UnpackedFloat.compare, signOf, h]
  rcases Nat.eq_zero_or_pos m with rfl | hpos
  · rcases Nat.eq_zero_or_pos m' with rfl | hpos'
    · decide
    obtain ⟨f', k', hf', heq', -⟩ := exists_valueOf_eq_finite false hpos' hlt'
    simp [valueOf_zero, heq', UnpackedFloat.compare, signOf]
  obtain ⟨f, k, hf, heq, hm, hlt, hk⟩ := exists_valueOf_eq_finite false hpos hlt
  rcases Nat.eq_zero_or_pos m' with rfl | hpos'
  · simp [valueOf_zero, heq, UnpackedFloat.compare, signOf]
    omega
  obtain ⟨f', k', hf', heq', hm', hlt', hk'⟩ := exists_valueOf_eq_finite false hpos' hlt'
  rw [heq, heq']
  refine compare_positive.trans ?_
  unfold hiddenBit at *
  omega

theorem not_zero_le_ofMagnitude (hpos : 0 < m) (h : m ≤ infinityBits) :
    ¬ofMagnitude false 0 ≤ ofMagnitude true m := by
  rw [le_iff_compare, unpack_ofMagnitude _ h, unpack_ofMagnitude _ (Nat.zero_le _), valueOf_zero]
  rcases Nat.eq_or_lt_of_le h with rfl | hlt
  · rw [valueOf_infinityBits]
    decide
  · obtain ⟨significand, step, hsignificand, heq, -⟩ :=
      exists_valueOf_eq_finite true hpos hlt
    rw [heq]
    simp [signOf, UnpackedFloat.compare]

end Order

end ClusterBalance.Decimal
