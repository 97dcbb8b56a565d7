import ClusterBalance.Proofs.Decimal.Grid

/-! The order of doubles. Main statement: doubles that are numbers compare as what they stand for
does, infinities lying beyond every rational number. -/

namespace ClusterBalance.Decimal

open Float.Model Float.Model.UnpackedFloat

/-- What an unpacked double stands for, infinities included. -/
def extended : UnpackedFloat → WithBot (WithTop ℚ)
  | .infinity .positive => ⊤
  | .infinity .negative => ⊥
  | u => ((amount u : WithTop ℚ) : WithBot (WithTop ℚ))

/-- Where a double lies among all numbers and the infinities. -/
def place (x : Float) : WithBot (WithTop ℚ) := extended x.toModel.unpack

section Magnitudes

variable {m m' : Nat} {e e' : Int}

/-- Of two significands with different exponents that with the greater exponent stands for more. -/
theorem mul_zpow_lt_of_lt (h : Canonical m e) (h' : Canonical m' e') (hlt : e < e') :
    (m : ℚ) * 2 ^ e < m' * 2 ^ e' := by
  have hnormal : hiddenBit ≤ m' := h'.normal.resolve_left (by have := h.least; omega)
  calc (m : ℚ) * 2 ^ e < (2 * hiddenBit : ℕ) * 2 ^ e := by
        gcongr
        exact_mod_cast h.lt
    _ = hiddenBit * 2 ^ (e + 1) := by
        rw [zpow_add_one₀ two_ne_zero]
        push_cast
        ring
    _ ≤ m' * 2 ^ e' := by
        gcongr
        · norm_num
        · omega

/-- Exponents are compared first and then significands. -/
theorem compare_then_eq_cmp (h : Canonical m e) (h' : Canonical m' e') :
    (compare e e').then (compare m m') = cmp ((m : ℚ) * 2 ^ e) (m' * 2 ^ e') := by
  rcases lt_trichotomy e e' with hlt | rfl | hgt
  · rw [Int.compare_eq_lt.mpr hlt, (cmp_eq_lt_iff _ _).mpr (mul_zpow_lt_of_lt h h' hlt)]
    rfl
  · have hpow : (0 : ℚ) < 2 ^ e := by positivity
    rw [Int.compare_eq_eq.mpr rfl, cmp_mul_pos_right hpow, Nat.strictMono_cast.cmp_map_eq,
      cmp_eq_compare]
    rfl
  · rw [Int.compare_eq_gt.mpr hgt, (cmp_eq_gt_iff _ _).mpr (mul_zpow_lt_of_lt h' h hgt)]
    rfl

end Magnitudes

section Unpacked

variable {u v : UnpackedFloat}

/-- An unpacked double as the bits of a double are read, if they are a number. -/
inductive IsNumber : UnpackedFloat → Prop
  | infinity (s : Sign) : IsNumber (.infinity s)
  | rounded {u : UnpackedFloat} (h : IsRounded u) : IsNumber u

theorem amount_pos {m : Nat} {e : Int} {hm : 0 < m} : 0 < amount (.finite .positive m e hm) := by
  have hcast : (0 : ℚ) < m := by exact_mod_cast hm
  simp only [amount, Sign.apply]
  positivity

theorem amount_neg {m : Nat} {e : Int} {hm : 0 < m} : amount (.finite .negative m e hm) < 0 := by
  have hpos : 0 < amount (.finite .positive m e hm) := amount_pos
  simp only [amount, Sign.apply, Int.cast_neg, neg_mul] at *
  linarith

theorem cmp_coe (p q : ℚ) :
    cmp ((p : WithTop ℚ) : WithBot (WithTop ℚ)) ((q : WithTop ℚ) : WithBot (WithTop ℚ)) =
      cmp p q := by
  have hmono : StrictMono fun q : ℚ => ((q : WithTop ℚ) : WithBot (WithTop ℚ)) :=
    WithBot.coe_strictMono.comp WithTop.coe_strictMono
  exact hmono.cmp_map_eq p q

theorem compare_finite_eq_cmp {s s' : Sign} {m m' : Nat} {e e' : Int} {hm : 0 < m} {hm' : 0 < m'}
    (h : Canonical m e) (h' : Canonical m' e') :
    (UnpackedFloat.finite s m e hm).compare (.finite s' m' e' hm') =
      some (cmp (amount (.finite s m e hm)) (amount (.finite s' m' e' hm'))) := by
  have hcompare := compare_then_eq_cmp h h'
  cases s with
  | positive =>
    cases s' with
    | positive => exact congrArg some hcompare
    | negative => exact congrArg some ((cmp_eq_gt_iff _ _).mpr (amount_neg.trans amount_pos)).symm
  | negative =>
    cases s' with
    | positive => exact congrArg some ((cmp_eq_lt_iff _ _).mpr (amount_neg.trans amount_pos)).symm
    | negative =>
      have hamount (m : Nat) (e : Int) (hm : 0 < m) :
          amount (.finite .negative m e hm) = -((m : ℚ) * 2 ^ e) := by
        simp [amount, Sign.apply]
      have hanti : StrictAnti fun q : ℚ => -q := fun _ _ hlt => neg_lt_neg hlt
      rw [hamount, hamount, hanti.cmp_map_eq, ← cmp_swap, ← hcompare]
      rfl

theorem extended_of_isRounded (h : IsRounded u) :
    extended u = ((amount u : WithTop ℚ) : WithBot (WithTop ℚ)) := by
  cases h <;> rfl

/-- Numbers compare as what they stand for. -/
theorem compare_eq_cmp (hu : IsNumber u) (hv : IsNumber v) :
    u.compare v = some (cmp (extended u) (extended v)) := by
  -- infinities first, on either side, and then the numbers
  rcases hu with ⟨s⟩ | ⟨hu⟩
  · rcases hv with ⟨s'⟩ | ⟨hv⟩
    · cases s <;> cases s' <;> rfl
    · rcases hv with ⟨s'⟩ | ⟨s', hm, h⟩ <;> cases s <;> rfl
  rcases hv with ⟨s'⟩ | ⟨hv⟩
  · rcases hu with ⟨s⟩ | ⟨s, hm, h⟩ <;> cases s' <;> rfl
  have hfinite : u.compare v = some (cmp (amount u) (amount v)) := by
    rcases hu with ⟨s⟩ | ⟨s, hm, h⟩
    · rcases hv with ⟨s'⟩ | ⟨s', hm', h'⟩
      · rfl
      · cases s' with
        | positive => exact congrArg some ((cmp_eq_lt_iff _ _).mpr amount_pos).symm
        | negative => exact congrArg some ((cmp_eq_gt_iff _ _).mpr amount_neg).symm
    · rcases hv with ⟨s'⟩ | ⟨s', hm', h'⟩
      · cases s with
        | positive => exact congrArg some ((cmp_eq_gt_iff _ _).mpr amount_pos).symm
        | negative => exact congrArg some ((cmp_eq_lt_iff _ _).mpr amount_neg).symm
      · exact compare_finite_eq_cmp h h'
  rw [hfinite, extended_of_isRounded hu, extended_of_isRounded hv, cmp_coe]

end Unpacked

section Doubles

variable {x y : Float}

theorem isNumber_of_isNaN (h : x.isNaN = false) : IsNumber x.toModel.unpack := by
  by_cases hfinite : x.isFinite = true
  · exact .rounded (isRounded_of_isFinite hfinite)
  · change x.toModel.unpack.isNaN = false at h
    change ¬x.toModel.unpack.isFinite = true at hfinite
    cases hx : x.toModel.unpack with
    | infinity s => exact .infinity s
    | notANumber =>
      rw [hx] at h
      cases h
    | zero s =>
      rw [hx] at hfinite
      exact absurd rfl hfinite
    | finite s m e hm =>
      rw [hx] at hfinite
      exact absurd rfl hfinite

theorem compare_of_isNaN (h : x.isNaN = true ∨ y.isNaN = true) :
    x.toModel.unpack.compare y.toModel.unpack = none := by
  have hnan {u : UnpackedFloat} (hu : u.isNaN = true) : u = .notANumber := by
    cases u <;> first | rfl | cases hu
  rcases h with h | h
  · rw [hnan (u := x.toModel.unpack) h]
    rfl
  · rw [hnan (u := y.toModel.unpack) h]
    rcases x.toModel.unpack with (_ | _) | _ | _ | ⟨_ | _, _⟩ <;> rfl

/-- A comparison that holds is one of numbers. -/
theorem isNaN_of_compare {o : Ordering} (h : x.toModel.unpack.compare y.toModel.unpack = some o) :
    x.isNaN = false ∧ y.isNaN = false := by
  rw [← Bool.not_eq_true, ← Bool.not_eq_true, ← not_or]
  intro hnan
  rw [compare_of_isNaN hnan] at h
  cases h

theorem le_iff_place (hx : x.isNaN = false) (hy : y.isNaN = false) :
    x ≤ y ↔ place x ≤ place y := by
  rw [le_iff_compare, compare_eq_cmp (isNumber_of_isNaN hx) (isNumber_of_isNaN hy)]
  change (cmp (place x) (place y)).isLE = true ↔ _
  rw [← Ordering.ne_gt_iff_isLE, cmp_eq_gt_iff, not_lt]

theorem lt_iff_compare : x < y ↔ x.toModel.unpack.compare y.toModel.unpack = some .lt := by
  change decide (x.toModel < y.toModel) = true ↔ _
  rw [decide_eq_true_iff]
  exact beq_iff_eq

theorem lt_iff_place (hx : x.isNaN = false) (hy : y.isNaN = false) :
    x < y ↔ place x < place y := by
  rw [lt_iff_compare, compare_eq_cmp (isNumber_of_isNaN hx) (isNumber_of_isNaN hy),
    Option.some_inj]
  exact cmp_eq_lt_iff ..

theorem beq_iff_place (hx : x.isNaN = false) (hy : y.isNaN = false) :
    (x == y) = true ↔ place x = place y := by
  change (x.toModel.unpack.compare y.toModel.unpack == some .eq) = true ↔ _
  rw [compare_eq_cmp (isNumber_of_isNaN hx) (isNumber_of_isNaN hy), beq_iff_eq, Option.some_inj]
  exact cmp_eq_eq_iff ..

theorem isNaN_of_lt (h : x < y) : x.isNaN = false ∧ y.isNaN = false :=
  isNaN_of_compare (lt_iff_compare.mp h)

theorem isNaN_left_of_le (h : x ≤ y) : x.isNaN = false := by
  obtain ⟨o, ho, -⟩ := (Option.any_eq_true _ _).mp (le_iff_compare.mp h)
  exact (isNaN_of_compare ho).1

theorem isNaN_of_beq (h : (x == y) = true) : x.isNaN = false ∧ y.isNaN = false :=
  isNaN_of_compare (beq_iff_eq.mp h)

theorem place_of_isFinite (h : x.isFinite = true) :
    place x = ((value x : WithTop ℚ) : WithBot (WithTop ℚ)) :=
  extended_of_isRounded (isRounded_of_isFinite h)

theorem le_iff_value (hx : x.isFinite = true) (hy : y.isFinite = true) :
    x ≤ y ↔ value x ≤ value y := by
  rw [le_iff_place (isNaN_of_isFinite hx) (isNaN_of_isFinite hy), place_of_isFinite hx,
    place_of_isFinite hy, WithBot.coe_le_coe, WithTop.coe_le_coe]

theorem lt_iff_value (hx : x.isFinite = true) (hy : y.isFinite = true) :
    x < y ↔ value x < value y := by
  rw [lt_iff_place (isNaN_of_isFinite hx) (isNaN_of_isFinite hy), place_of_isFinite hx,
    place_of_isFinite hy, WithBot.coe_lt_coe, WithTop.coe_lt_coe]

end Doubles

end ClusterBalance.Decimal
