import ClusterBalance.Proofs.Decimal.Sums

/-! Products of doubles. Main statements: what is scaled down is not above what it was, and what is
scaled up is not below it, whatever is rounded off or overflows; but zero and infinity have no
product. -/

namespace ClusterBalance.Decimal

open Float.Model Float.Model.UnpackedFloat

variable {x y : Float} {u v : UnpackedFloat} {q : ℚ}

section Rounded

variable {m n : Nat} {e f : Int} {hm : 0 < m}

/-- A product of significands has no fewer bits than are kept, unless both factors are small. -/
theorem add_le_roundingExponent (hm : 0 < m) (hn : 0 < n) (h : Canonical m e)
    (h' : Canonical n f) : e + f ≤ roundingExponent (m * n) (e + f) := by
  have hpos : m * n ≠ 0 := Nat.ne_of_gt (Nat.mul_pos hm hn)
  have hlong (hlarge : hiddenBit ≤ m * n) : e + f ≤ (m * n).log2 + (e + f) - 52 := by
    have hlog : 52 ≤ (m * n).log2 := (Nat.le_log2 hpos).mpr hlarge
    omega
  rw [roundingExponent_eq, le_max_iff]
  rcases h.normal with he | hnormal
  · rcases h'.normal with hf | hnormal
    · right
      rw [he, hf]
      decide
    · exact .inl (hlong (hnormal.trans (Nat.le_mul_of_pos_left n hm)))
  · exact .inl (hlong (hnormal.trans (Nat.le_mul_of_pos_right m hn)))

theorem roundsTo_mul (hu : IsRounded u) (hv : IsRounded v) :
    RoundsTo (amount u * amount v) (UnpackedFloat.mul .binary64 u v) := by
  have hzero (s : Sign) : amount (.zero s) = 0 := rfl
  cases hu with
  | zero s =>
    rw [hzero, zero_mul]
    cases hv <;> exact .self (.zero _)
  | @finite s m e hm h =>
    cases hv with
    | zero s' =>
      rw [hzero, mul_zero]
      exact .self (.zero _)
    | @finite s' m' e' hm' h' =>
      have hle := add_le_roundingExponent hm hm' h h'
      have hexact : Lies (.ofMantissaAndAccuracy (m * m') .exact) ((m * m' : ℕ) : ℚ) := rfl
      have hproduct : amount (.finite s m e hm) * amount (.finite s' m' e' hm') =
          (s * s').apply 1 * ((m * m' : ℕ) * 2 ^ (e + e')) := by
        have hsign : (s * s').apply 1 = s.apply 1 * s'.apply 1 := by
          cases s <;> cases s' <;> rfl
        rw [amount, amount, apply_mul, apply_mul s' m', hsign, zpow_add₀ two_ne_zero]
        push_cast
        ring
      rw [hproduct]
      exact roundsTo_roundWithAccuracy hexact hle _

/-- A significand with too great an exponent stands for more than a finite double does. -/
theorem value_lt_amount (hx : x.isFinite = true) (h : Canonical m e) (he : greatestExponent < e) :
    value x < amount (.finite .positive m e hm) := by
  obtain ⟨hrounded, hexponent⟩ := unpack_of_isFinite hx
  unfold value
  generalize x.toModel.unpack = u at hrounded hexponent
  cases hrounded with
  | zero s => exact amount_pos
  | @finite s n f hn hcanonical =>
    cases s with
    | negative => exact amount_neg.trans amount_pos
    | positive =>
      exact mul_zpow_lt_of_lt hcanonical h ((hexponent _ _ _ hn rfl).trans_lt he)

/-- Rounding up does not pass a finite double, so it does not overflow below one. -/
theorem place_pack_le (h : RoundsTo q u) (hx : x.isFinite = true) (hle : q ≤ value x) :
    place (.ofModel (Float.Model.pack u)) ≤ place x := by
  obtain ⟨hrounded, hnearest⟩ := h
  have hamount : amount u ≤ value x := hnearest.ge_of_ge (onGrid_value hx) hle
  have hcoe : ((amount u : WithTop ℚ) : WithBot (WithTop ℚ)) ≤ place x := by
    rw [place_of_isFinite hx]
    exact WithBot.coe_le_coe.mpr (WithTop.coe_le_coe.mpr hamount)
  change extended (Float.Model.pack u).unpack ≤ _
  cases hrounded with
  | zero s => rwa [unpack_pack_zero]
  | @finite s m e hm h =>
    by_cases he : e ≤ greatestExponent
    · rwa [unpack_pack_finite h he]
    · rw [unpack_pack_infinite (not_le.mp he)]
      cases s with
      | negative => exact bot_le
      | positive => exact absurd hamount (not_le.mpr (value_lt_amount hx h (not_le.mp he)))

end Rounded

section Doubles

theorem Rounds.isNaN (h : Rounds q x) : x.isNaN = false := by
  cases hfinite : x.isFinite with
  | true => exact isNaN_of_isFinite hfinite
  | false =>
    change x.toModel.unpack.isNaN = false
    rw [h.infinite hfinite]
    rfl

theorem Rounds.le_place (h : Rounds q x) (hy : y.isFinite = true) (hq : 0 ≤ q)
    (hle : value y ≤ q) : place y ≤ place x := by
  rw [place_of_isFinite hy]
  cases hfinite : x.isFinite with
  | true =>
    rw [place_of_isFinite hfinite]
    have hvalue := (h.nearest hfinite).le_of_le (onGrid_value hy) hle
    exact WithBot.coe_le_coe.mpr (WithTop.coe_le_coe.mpr hvalue)
  | false =>
    rw [place, h.infinite hfinite, decide_eq_false (not_lt.mpr hq)]
    exact le_top

theorem rounds_mul (hx : x.isFinite = true) (hy : y.isFinite = true) :
    Rounds (value x * value y) (x * y) :=
  rounds_pack (roundsTo_mul (isRounded_of_isFinite hx) (isRounded_of_isFinite hy))

theorem mul_le (hx : x.isFinite = true) (hy : y.isFinite = true) (hnonneg : 0 ≤ value x)
    (hle : value y ≤ 1) : x * y ≤ x := by
  rw [le_iff_place (rounds_mul hx hy).isNaN (isNaN_of_isFinite hx)]
  exact place_pack_le (roundsTo_mul (isRounded_of_isFinite hx) (isRounded_of_isFinite hy)) hx
    (mul_le_of_le_one_right hnonneg hle)

theorem le_mul (hx : x.isFinite = true) (hy : y.isFinite = true) (hnonneg : 0 ≤ value x)
    (hle : 1 ≤ value y) : x ≤ x * y := by
  have hscaled : value x ≤ value x * value y := le_mul_of_one_le_right hnonneg hle
  rw [le_iff_place (isNaN_of_isFinite hx) (rounds_mul hx hy).isNaN]
  exact (rounds_mul hx hy).le_place hx (hnonneg.trans hscaled) hscaled

end Doubles

section NotBelow

/-- An unpacked double that is not below zero. It may be no number. -/
inductive NotBelow : UnpackedFloat → Prop
  | infinity : NotBelow (.infinity .positive)
  | notANumber : NotBelow .notANumber
  | zero (s : Sign) : NotBelow (.zero s)
  | finite {m : Nat} {e : Int} (hm : 0 < m) : NotBelow (.finite .positive m e hm)

theorem notNegative_iff_notBelow : NotNegative x ↔ NotBelow x.toModel.unpack := by
  rw [NotNegative, lt_iff_compare, unpack_zero]
  generalize x.toModel.unpack = u
  constructor
  · intro h
    rcases u with (_ | _) | _ | s | ⟨_ | _, _, _, hm⟩
    · exact absurd rfl h
    · exact .infinity
    · exact .notANumber
    · exact .zero s
    · exact absurd rfl h
    · exact .finite hm
  · intro h hlt
    cases h <;> cases hlt

theorem unpackSign_packComponents {spec : Format} (s : Sign) (e : BitVec spec.exponentBits)
    (f : BitVec spec.mantissaBitsWithoutImplicit) :
    unpackSign (packComponents spec s e f) = s.toBitVec := by
  apply BitVec.eq_of_getLsbD_eq
  intro i hi
  have hlow : ¬spec.mantissaBitsWithoutImplicit + spec.exponentBits + i <
      spec.mantissaBitsWithoutImplicit := by omega
  have hmiddle : ¬spec.mantissaBitsWithoutImplicit + spec.exponentBits + i -
      spec.mantissaBitsWithoutImplicit < spec.exponentBits := by omega
  have hbit : spec.mantissaBitsWithoutImplicit + spec.exponentBits + i -
      spec.mantissaBitsWithoutImplicit - spec.exponentBits = i := by omega
  simp [unpackSign, packComponents, BitVec.getLsbD_append, hi, hlow, hmiddle, hbit]

theorem exists_pack_eq {s : Sign} {m : Nat} {e : Int} (hm : 0 < m) :
    ∃ e' f, UnpackedFloat.pack .binary64 (.finite s m e hm) = packComponents .binary64 s e' f := by
  unfold UnpackedFloat.pack
  simp only
  split
  · exact ⟨_, _, rfl⟩
  split
  · exact ⟨_, _, rfl⟩
  · exact ⟨_, _, rfl⟩

/-- Packing keeps the sign, whatever is packed. -/
theorem NotBelow.unpack_pack (h : NotBelow u) : NotBelow (Float.Model.pack u).unpack := by
  cases h with
  | infinity => exact .infinity
  | notANumber => exact .notANumber
  | zero s =>
    rw [unpack_pack_zero]
    exact .zero s
  | @finite m e hm =>
    obtain ⟨e', f, hpack⟩ := exists_pack_eq (s := .positive) (e := e) hm
    have hsign : Sign.ofBitVec (Sign.positive).toBitVec = .positive := rfl
    change NotBelow (UnpackedFloat.unpack .binary64 (UnpackedFloat.pack .binary64 _))
    rw [hpack, UnpackedFloat.unpack]
    simp only [unpackSign_packComponents, hsign]
    split
    · split <;> constructor
    split
    · split <;> constructor
    · constructor

theorem NotBelow.div (hu : NotBelow u) (hv : NotBelow v) (hzero : ∀ s, v ≠ .zero s) :
    NotBelow (UnpackedFloat.div .binary64 u v) := by
  cases hv with
  | infinity => cases hu <;> constructor
  | notANumber => cases hu <;> constructor
  | zero s => exact absurd rfl (hzero s)
  | finite hm' =>
    cases hu with
    | infinity => constructor
    | notANumber => constructor
    | zero s => constructor
    | finite hm =>
      -- the sign of what is rounded is that of the quotient
      simp only [UnpackedFloat.div, roundWithAccuracy]
      split <;> constructor

end NotBelow

section Special

theorem isFinite_one : (1.0 : Float).isFinite = true := by decide

theorem isNaN_one : (1.0 : Float).isNaN = false := isNaN_of_isFinite isFinite_one

theorem isFinite_two : (2.0 : Float).isFinite = true := by decide

theorem value_one : value 1.0 = 1 := by
  have hmagnitude : (1.0 : Float) = ofMagnitude false (1023 * hiddenBit) := by decide
  have hvalue : valueOf false (1023 * hiddenBit) = .finite .positive hiddenBit (-52) (by decide) :=
    rfl
  rw [value, hmagnitude, unpack_ofMagnitude _ (by decide), hvalue]
  norm_num [amount, Sign.apply, hiddenBit]

theorem value_two : value 2.0 = 2 := by
  have hmagnitude : (2.0 : Float) = ofMagnitude false (1024 * hiddenBit) := by decide
  have hvalue : valueOf false (1024 * hiddenBit) = .finite .positive hiddenBit (-51) (by decide) :=
    rfl
  rw [value, hmagnitude, unpack_ofMagnitude _ (by decide), hvalue]
  norm_num [amount, Sign.apply, hiddenBit]

/-- Whether an unpacked double is a zero, of either sign. -/
def isZero : UnpackedFloat → Bool
  | .zero _ => true
  | _ => false

theorem beq_zero_eq (x : Float) : (x == 0.0) = isZero x.toModel.unpack := by
  change (x.toModel.unpack.compare (0.0 : Float).toModel.unpack == some .eq) = _
  rw [unpack_zero]
  rcases x.toModel.unpack with (_ | _) | _ | _ | ⟨_ | _, _⟩ <;> rfl

theorem isInf_eq (x : Float) : x.isInf = x.toModel.unpack.isInf := rfl

theorem isSpecial_mul (h : IsSpecial u ∨ IsSpecial v) :
    IsSpecial (UnpackedFloat.mul .binary64 u v) := by
  rcases h with ⟨⟨s⟩ | _⟩ | ⟨⟨s⟩ | _⟩
  · rcases v with s' | _ | s' | _ <;> constructor
  · constructor
  · rcases u with s' | _ | s' | _ <;> constructor
  · rcases u with s' | _ | s' | _ <;> constructor

/-- What is no finite number is not rounded when it is multiplied. -/
theorem unpack_mul (h : x.isFinite = false ∨ y.isFinite = false) :
    (x * y).toModel.unpack =
      UnpackedFloat.mul .binary64 x.toModel.unpack y.toModel.unpack :=
  unpack_pack_of_isSpecial (isSpecial_mul (h.imp isSpecial_of_isFinite isSpecial_of_isFinite))

theorem isInf_of_isFinite (h : x.isFinite = true) : x.isInf = false := by
  change x.toModel.unpack.isFinite = true at h
  rw [isInf_eq]
  generalize x.toModel.unpack = u at h ⊢
  cases u <;> first | rfl | cases h

/-- A product of numbers is none exactly if zero meets infinity. -/
theorem isNaN_mul (hx : x.isNaN = false) (hy : y.isNaN = false) :
    (x * y).isNaN = ((x == 0.0) && y.isInf || x.isInf && (y == 0.0)) := by
  by_cases hfinite : x.isFinite = true ∧ y.isFinite = true
  · obtain ⟨hx', hy'⟩ := hfinite
    rw [(rounds_mul hx' hy').isNaN, isInf_of_isFinite hx', isInf_of_isFinite hy', Bool.and_false,
      Bool.false_and, Bool.or_false]
  · rw [not_and_or, Bool.not_eq_true, Bool.not_eq_true] at hfinite
    change (x * y).toModel.unpack.isNaN = _
    rw [unpack_mul hfinite, beq_zero_eq, beq_zero_eq, isInf_eq, isInf_eq]
    change x.toModel.unpack.isNaN = false at hx
    change y.toModel.unpack.isNaN = false at hy
    have hspecial := hfinite.imp isSpecial_of_isFinite isSpecial_of_isFinite
    generalize x.toModel.unpack = u at *
    generalize y.toModel.unpack = v at *
    rcases hspecial with ⟨⟨s⟩ | _⟩ | ⟨⟨s⟩ | _⟩
    · cases v <;> first | rfl | cases hy
    · cases hx
    · cases u <;> first | rfl | cases hx
    · cases hy

theorem not_isFinite_of_isInf (h : x.isInf = true) : x.isFinite = false := by
  rw [← Bool.not_eq_true]
  intro hfinite
  rw [isInf_of_isFinite hfinite] at h
  cases h

/-- Infinity that is multiplied is infinite, unless there is no product. -/
theorem place_mul_of_isInf (hx : NotNegative x) (hy : NotNegative y)
    (hinfinite : x.isInf = true ∨ y.isInf = true) (hnumber : (x * y).isNaN = false) :
    place (x * y) = ⊤ := by
  have hunpack := unpack_mul (hinfinite.imp not_isFinite_of_isInf not_isFinite_of_isInf)
  change (x * y).toModel.unpack.isNaN = false at hnumber
  rw [notNegative_iff_notBelow] at hx hy
  rw [isInf_eq, isInf_eq] at hinfinite
  rw [hunpack] at hnumber
  rw [place, hunpack]
  generalize x.toModel.unpack = u at *
  generalize y.toModel.unpack = v at *
  rcases hinfinite with hinfinite | hinfinite
  · cases hx <;> try cases hinfinite
    cases hy <;> first | rfl | cases hnumber
  · cases hy <;> try cases hinfinite
    cases hx <;> first | rfl | cases hnumber

theorem isInf_of_isNaN (hnumber : x.isNaN = false) (h : x.isFinite = false) : x.isInf = true := by
  have hspecial := isSpecial_of_isFinite h
  change x.toModel.unpack.isNaN = false at hnumber
  rw [isInf_eq]
  generalize x.toModel.unpack = u at *
  rcases hspecial with _ | _
  · rfl
  · cases hnumber

theorem unpack_of_isInf (hx : NotNegative x) (h : x.isInf = true) :
    x.toModel.unpack = .infinity .positive := by
  rw [notNegative_iff_notBelow] at hx
  rw [isInf_eq] at h
  generalize x.toModel.unpack = u at *
  cases hx <;> first | rfl | cases h

theorem place_of_isInf (hx : NotNegative x) (h : x.isInf = true) : place x = ⊤ := by
  rw [place, unpack_of_isInf hx h]
  rfl

theorem place_sub_of_isInf (hx : x.isFinite = true) (hy : NotNegative y) (h : y.isInf = true) :
    place (x - y) = ⊥ := by
  have hsub : UnpackedFloat.sub .binary64 x.toModel.unpack y.toModel.unpack =
      .infinity .negative := by
    have hrounded := isRounded_of_isFinite hx
    rw [unpack_of_isInf hy h]
    generalize x.toModel.unpack = u at hrounded
    cases hrounded <;> rfl
  change extended (Float.Model.pack (UnpackedFloat.sub .binary64 _ _)).unpack = ⊥
  rw [hsub, unpack_pack_of_isSpecial (.infinity _)]
  rfl

theorem isFinite_of_place_le (hx : NotNegative x) (hnumber : x.isNaN = false)
    (hy : y.isFinite = true) (hle : place x ≤ place y) : x.isFinite = true := by
  by_contra hinfinite
  rw [place_of_isInf hx (isInf_of_isNaN hnumber (Bool.not_eq_true _ |>.mp hinfinite)),
    place_of_isFinite hy] at hle
  exact absurd hle (by simp)

/-- What is scaled down, infinity included, is not above what it was. -/
theorem mul_le_self (hx : NotNegative x) (hy : y.isFinite = true) (hle : value y ≤ 1)
    (hx' : x.isNaN = false) (hnumber : (x * y).isNaN = false) : x * y ≤ x := by
  cases hfinite : x.isFinite with
  | true => exact mul_le hfinite hy ((notNegative_iff_value hfinite).mp hx) hle
  | false =>
    rw [le_iff_place hnumber hx', place_of_isInf hx (isInf_of_isNaN hx' hfinite)]
    exact le_top

theorem le_of_lt_double (h : x < y) : x ≤ y := by
  obtain ⟨hx, hy⟩ := isNaN_of_lt h
  exact (le_iff_place hx hy).mpr ((lt_iff_place hx hy).mp h).le

theorem place_zero_lt_one : place 0.0 < place 1.0 := by
  rw [← lt_iff_place isNaN_zero isNaN_one, lt_iff_value isFinite_zero isFinite_one, value_zero,
    value_one]
  exact zero_lt_one

theorem notNegative_of_one_le (h : 1.0 ≤ y) : NotNegative y := by
  intro hlt
  have hle : place 1.0 ≤ place y := (le_iff_place isNaN_one (isNaN_of_le h)).mp h
  have hlt' : place y < place 0.0 := (lt_iff_place (isNaN_of_lt hlt).1 isNaN_zero).mp hlt
  exact (hle.trans_lt hlt').not_gt place_zero_lt_one

/-- What is scaled up, infinity included, is not below what it was. -/
theorem self_le_mul (hx : NotNegative x) (hy : 1.0 ≤ y) (hx' : x.isNaN = false)
    (hnumber : (x * y).isNaN = false) : x ≤ x * y := by
  have hy' : y.isNaN = false := isNaN_of_le hy
  by_cases hfinite : x.isFinite = true ∧ y.isFinite = true
  · rw [le_iff_value isFinite_one hfinite.2, value_one] at hy
    exact le_mul hfinite.1 hfinite.2 ((notNegative_iff_value hfinite.1).mp hx) hy
  · rw [not_and_or, Bool.not_eq_true, Bool.not_eq_true] at hfinite
    rw [le_iff_place hx' hnumber, place_mul_of_isInf hx (notNegative_of_one_le hy)
      (hfinite.imp (isInf_of_isNaN hx') (isInf_of_isNaN hy')) hnumber]
    exact le_top

theorem notNegative_div (hx : NotNegative x) (hy : NotNegative y) (hzero : (y == 0.0) = false) :
    NotNegative (x / y) := by
  rw [notNegative_iff_notBelow] at hx hy ⊢
  refine (hx.div hy fun s hs => ?_).unpack_pack
  rw [beq_zero_eq, hs] at hzero
  cases hzero

end Special

end ClusterBalance.Decimal
