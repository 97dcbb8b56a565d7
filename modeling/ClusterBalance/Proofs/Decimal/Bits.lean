import ClusterBalance.Proofs.Decimal.Magnitude

/-! Doubles by their words. Main statements: a finite double is made of its sign and its magnitude,
and what its fields are read as counts up to that magnitude; the double nearest to a number is
finite unless it is infinite. -/

namespace ClusterBalance.Decimal

open Float.Model Float.Model.UnpackedFloat

variable {x y : Float}

/-- A double that is a number equals itself. -/
theorem beq_self_of_isNaN (h : x.isNaN = false) : (x == x) = true := by
  change x.toModel.unpack.isNaN = false at h
  change (x.toModel.unpack.compare x.toModel.unpack == some .eq) = true
  cases hx : x.toModel.unpack with
  | infinity s => cases s <;> rfl
  | notANumber => rw [hx] at h; cases h
  | zero s => rfl
  | finite s m e hm =>
    cases s <;> simp [UnpackedFloat.compare, Std.ReflCmp.compare_self]

theorem isNaN_of_le (h : x ≤ y) : y.isNaN = false := by
  rw [le_iff_compare] at h
  change y.toModel.unpack.isNaN = false
  cases hy : y.toModel.unpack with
  | notANumber =>
    rw [hy] at h
    cases hx : x.toModel.unpack with
    | infinity s => rw [hx] at h; cases s <;> cases h
    | finite s => rw [hx] at h; cases s <;> cases h
    | _ => rw [hx] at h; cases h
  | _ => rfl

theorem isNaN_of_isFinite (h : x.isFinite = true) : x.isNaN = false := by
  change x.toModel.unpack.isFinite = true at h
  change x.toModel.unpack.isNaN = false
  cases hx : x.toModel.unpack <;> rw [hx] at h <;> first | rfl | cases h

theorem ofMagnitude_eq_iff {negative : Bool} {m : Nat} (h : m ≤ infinityBits) :
    ofMagnitude negative m = x ↔ wordOf negative m = x.toModel.toBits := by
  have hbits : (ofMagnitude negative m).toModel.toBits = wordOf negative m := by
    change UInt64.ofBitVec (UnpackedFloat.pack .binary64
      (UnpackedFloat.unpack .binary64 (wordOf negative m).toBitVec)) = _
    rw [unpack_wordOf _ h, pack_valueOf _ h]
  constructor
  · rintro rfl
    exact hbits.symm
  · intro hword
    have hmodel : (ofMagnitude negative m).toModel = x.toModel := by
      rw [Float.Model.mk.injEq, hbits, hword]
    exact congrArg Float.ofModel hmodel

/-- The exponent field of a finite double is not that of the special numbers. -/
theorem field_of_isFinite (h : x.isFinite = true) :
    x.toModel.toBits.toNat / hiddenBit % numFields < numFields - 1 := by
  have hfield : (@unpackExponent .binary64 x.toModel.toBits.toBitVec).toNat =
      x.toModel.toBits.toNat / hiddenBit % numFields := by
    change (x.toModel.toBits.toNat >>> 52) % 2 ^ 11 = _
    rw [Nat.shiftRight_eq_div_pow]
    rfl
  have hne : @unpackExponent .binary64 x.toModel.toBits.toBitVec ≠ -1#_ := by
    intro heq
    change (UnpackedFloat.unpack .binary64 x.toModel.toBits.toBitVec).isFinite = true at h
    simp only [UnpackedFloat.unpack, heq, if_true] at h
    split at h <;> cases h
  have hne' : x.toModel.toBits.toNat / hiddenBit % numFields ≠ numFields - 1 := by
    intro heq
    rw [← hfield] at heq
    exact hne (BitVec.eq_of_toNat_eq heq)
  have hlt : x.toModel.toBits.toNat / hiddenBit % numFields < numFields := Nat.mod_lt _ (by decide)
  omega

/-- A finite double is made of its sign and its magnitude. -/
theorem exists_eq_ofMagnitude (h : x.isFinite = true) :
    ∃ negative m, m < infinityBits ∧ x = ofMagnitude negative m := by
  have hfield := field_of_isFinite h
  have hlt : x.toModel.toBits.toNat < 2 ^ 64 := x.toModel.toBits.toNat_lt
  have hm : x.toModel.toBits.toNat % signBit < infinityBits := by
    unfold infinityBits signBit numFields hiddenBit at *
    omega
  refine ⟨decide (signBit ≤ x.toModel.toBits.toNat), x.toModel.toBits.toNat % signBit, hm, ?_⟩
  apply Eq.symm
  apply (ofMagnitude_eq_iff (Nat.le_of_lt hm)).mpr
  apply UInt64.toNat_inj.mp
  rw [toNat_wordOf _ (Nat.le_of_lt hm)]
  unfold signBit at *
  simp only [decide_eq_true_eq]
  split <;> omega

/-- A magnitude is the significand that its fields are read as, with the steps of the exponent above
the least one. -/
theorem ofFloat_ofMagnitude {m : Nat} (negative : Bool) (h : m < infinityBits) :
    ∃ significand step, Reading.ofFloat (ofMagnitude negative m) =
        .finite negative significand (leastExponent + (step : Nat)) ∧
      m = step * hiddenBit + significand ∧ significand < 2 * hiddenBit ∧
        (step = 0 ∨ hiddenBit ≤ significand) := by
  have hword : (ofMagnitude negative m).toBits.toNat = m + if negative then signBit else 0 := by
    have hbits := (ofMagnitude_eq_iff (x := ofMagnitude negative m) (Nat.le_of_lt h)).mp rfl
    change (ofMagnitude negative m).toModel.toBits.toNat = _
    rw [← hbits, toNat_wordOf _ (Nat.le_of_lt h)]
  have hsign : ((m + if negative then signBit else 0) / signBit == 1) = negative := by
    unfold infinityBits signBit numFields hiddenBit at *
    cases negative with
    | false =>
      rw [if_neg Bool.false_ne_true, beq_eq_false_iff_ne]
      omega
    | true =>
      rw [if_pos rfl, beq_iff_eq]
      omega
  have hfield : (m + if negative then signBit else 0) / hiddenBit % numFields = m / hiddenBit := by
    unfold infinityBits signBit numFields hiddenBit at *
    split <;> omega
  have hfraction : (m + if negative then signBit else 0) % hiddenBit = m % hiddenBit := by
    unfold signBit hiddenBit
    split <;> omega
  have hlt : m / hiddenBit < numFields - 1 := by
    unfold infinityBits numFields hiddenBit at *
    omega
  have hm := Nat.div_add_mod m hiddenBit
  have hrest : m % hiddenBit < hiddenBit := Nat.mod_lt _ (by decide)
  simp only [Reading.ofFloat, hword, hsign, hfield, hfraction]
  rw [if_neg (Nat.ne_of_lt hlt)]
  by_cases hzero : m / hiddenBit = 0
  · rw [if_pos hzero]
    refine ⟨m % hiddenBit, 0, by simp, ?_, by omega, .inl rfl⟩
    rw [hzero] at hm
    omega
  · rw [if_neg hzero]
    obtain ⟨step, hstep⟩ : ∃ step, m / hiddenBit = step + 1 := ⟨_, (Nat.succ_pred hzero).symm⟩
    refine ⟨m % hiddenBit + hiddenBit, step, ?_, ?_, by omega, .inr (by omega)⟩
    · rw [hstep, Nat.add_sub_cancel]
    · rw [hstep, Nat.mul_comm, Nat.succ_mul] at hm
      omega

section Nearest

/-- A double of some magnitude is no special number but infinity. -/
theorem isFinite_of_isInf {negative : Bool} {m : Nat} (h : m ≤ infinityBits)
    (hinf : (ofMagnitude negative m).isInf = false) : (ofMagnitude negative m).isFinite = true := by
  have hlt : m < infinityBits := by
    rcases Nat.lt_or_eq_of_le h with hlt | rfl
    · exact hlt
    · rw [(isInf_ofMagnitude _ h).mpr rfl] at hinf
      cases hinf
  change (ofMagnitude negative m).toModel.unpack.isFinite = true
  rw [unpack_ofMagnitude _ h]
  rcases Nat.eq_zero_or_pos m with rfl | hpos
  · rw [valueOf_zero]
    rfl
  · obtain ⟨f, e, hf, hvalue, -⟩ := exists_valueOf_eq_finite negative hpos hlt
    rw [hvalue]
    rfl

theorem exists_nearest_eq_ofMagnitude (negative : Bool) (num den : Nat) :
    ∃ m, m ≤ infinityBits ∧ nearest negative num den = ofMagnitude negative m := by
  unfold nearest
  split
  · exact ⟨0, Nat.zero_le _, rfl⟩
  · exact ⟨_, Nat.min_le_right .., rfl⟩

theorem exists_ofDecimal_eq_ofMagnitude (negative : Bool) (digits : Nat) (exponent : Int) :
    ∃ m, m ≤ infinityBits ∧ ofDecimal negative digits exponent = ofMagnitude negative m := by
  unfold ofDecimal
  split
  · exact ⟨0, Nat.zero_le _, rfl⟩
  split
  · exact ⟨_, Nat.le_refl _, rfl⟩
  split
  · exact ⟨0, Nat.zero_le _, rfl⟩
  · exact exists_nearest_eq_ofMagnitude ..

theorem isFinite_ofDecimal {negative : Bool} {digits : Nat} {exponent : Int}
    (h : (ofDecimal negative digits exponent).isInf = false) :
    (ofDecimal negative digits exponent).isFinite = true := by
  obtain ⟨m, hm, heq⟩ := exists_ofDecimal_eq_ofMagnitude negative digits exponent
  rw [heq] at h ⊢
  exact isFinite_of_isInf hm h

theorem isFinite_of_ofWhole? {n : Int} (h : ofWhole? n = some x) : x.isFinite = true := by
  obtain ⟨m, hm, heq⟩ := exists_nearest_eq_ofMagnitude (decide (n < 0) != decide ((1 : Int) < 0))
    n.natAbs (1 : Int).natAbs
  unfold ofWhole? nearestRatio at h
  rw [heq] at h
  dsimp only at h
  split at h
  · cases h
  next hinf =>
    cases h
    exact isFinite_of_isInf hm (Bool.eq_false_iff.mpr hinf)

end Nearest

end ClusterBalance.Decimal
