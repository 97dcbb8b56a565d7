import ClusterBalance.Proofs.Decimal.Zeros

/-! Doubles but for the negative zero. Main statements: a sum is the negative zero only if all of
its parts are, two other doubles that compare as equal are the same, and zero is added to another
double in vain. -/

namespace ClusterBalance

namespace Decimal

open Float.Model Float.Model.UnpackedFloat

variable {x y : Float} {u v : UnpackedFloat}

/-- A double that is not the negative zero. It may be infinite, or no number. -/
def NotMinusZero (x : Float) : Prop := x.toModel.unpack ≠ .zero .negative

section Equality

/-- What a double is read as is packed into that double again. -/
theorem ofModel_pack_unpack (x : Float) :
    Float.ofModel (Float.Model.pack x.toModel.unpack) = x := by
  have hbits : UnpackedFloat.pack .binary64 x.toModel.unpack = x.toModel.toBits.toBitVec :=
    pack_unpack_of_valid x.toModel.valid
  have hmodel : Float.Model.pack x.toModel.unpack = x.toModel := by
    rw [Float.Model.mk.injEq]
    exact congrArg UInt64.ofBitVec hbits
  rw [hmodel]

theorem eq_of_beq (h : (x == y) = true) (hx : NotMinusZero x) (hy : NotMinusZero y) : x = y := by
  have hbeq : x.toModel.unpack.beq y.toModel.unpack = true := h
  obtain ⟨-, -, heq | ⟨-, hzero⟩ | ⟨hzero, -⟩⟩ := (beq_iff_ne_notANumber_and_eq _ _).mp hbeq
  · rw [← ofModel_pack_unpack x, heq, ofModel_pack_unpack]
  · exact absurd hzero hy
  · exact absurd hzero hx

theorem notMinusZero_zero : NotMinusZero 0.0 := by
  rw [NotMinusZero, unpack_zero]
  nofun

theorem add_zero (h : NotMinusZero x) : x + 0.0 = x := by
  have hadd : UnpackedFloat.add .binary64 x.toModel.unpack (0.0 : Float).toModel.unpack =
      x.toModel.unpack := by
    rw [unpack_zero]
    rw [NotMinusZero] at h
    generalize x.toModel.unpack = u at h
    rcases u with _ | _ | ⟨_ | _⟩ | _
    · rfl
    · rfl
    · exact absurd rfl h
    · rfl
    · rfl
  calc x + 0.0
    _ = .ofModel (Float.Model.pack
          (UnpackedFloat.add .binary64 x.toModel.unpack (0.0 : Float).toModel.unpack)) := rfl
    _ = x := by rw [hadd, ofModel_pack_unpack]

end Equality

section Sums

/-- A significand that is not zero is not rounded to zero if its exponent is not below the least
one. -/
theorem round_ne_zero {m : Nat} {e : Int} (hm : 0 < m) (he : leastExponent ≤ e) (s s' : Sign) :
    UnpackedFloat.round .binary64 s m e ≠ .zero s' := by
  intro hzero
  have hnearest := (roundsTo_round hm e s).nearest
  have hgrid : OnGrid (2 ^ e) := ⟨1, e, by norm_num, by decide, he⟩
  have hpow : (0 : ℚ) < 2 ^ e := by positivity
  have hone : (1 : ℚ) ≤ m := by exact_mod_cast hm
  have hle : (2 : ℚ) ^ e ≤ m * 2 ^ e := le_mul_of_one_le_left hpow.le hone
  rw [hzero, show amount (.zero s') = 0 from rfl] at hnearest
  cases s with
  | positive =>
    have hlow := hnearest.le_of_le hgrid hle
    linarith
  | negative =>
    have hhigh := hnearest.ge_of_ge hgrid.neg (by simpa [Sign.apply] using hle)
    linarith

theorem normalize_ne {n e : Int} (he : leastExponent ≤ e) :
    UnpackedFloat.normalize .binary64 n e .positive ≠ .zero .negative := by
  unfold UnpackedFloat.normalize
  rcases lt_trichotomy n 0 with hlt | rfl | hgt
  · rw [Int.compare_eq_lt.mpr hlt]
    exact round_ne_zero (by omega) he _ _
  · nofun
  · rw [Int.compare_eq_gt.mpr hgt]
    exact round_ne_zero (by omega) he _ _

theorem add_ne (hu : IsRounded u) (hv : IsRounded v)
    (h : u ≠ .zero .negative ∨ v ≠ .zero .negative) :
    UnpackedFloat.add .binary64 u v ≠ .zero .negative := by
  cases hu with
  | zero s =>
    cases hv with
    | zero s' =>
      cases s with
      | positive => cases s' <;> nofun
      | negative =>
        cases s' with
        | positive => nofun
        | negative => exact absurd rfl (h.elim id id)
    | finite s' hm' h' => nofun
  | @finite s m e hm hcanonical =>
    cases hv with
    | zero s' => nofun
    | @finite s' m' e' hm' hcanonical' =>
      -- opposite numbers add up to the positive zero
      exact normalize_ne (le_min hcanonical.least hcanonical'.least)

theorem unpack_pack_ne (h : IsRounded u) (hne : u ≠ .zero .negative) :
    (Float.Model.pack u).unpack ≠ .zero .negative := by
  cases h with
  | zero s => rwa [unpack_pack_zero]
  | @finite s m e hm hcanonical =>
    by_cases hle : e ≤ greatestExponent
    · rw [show (Float.Model.pack (.finite s m e hm)).unpack = _ from
        unpack_pack_finite hcanonical hle]
      nofun
    · rw [show (Float.Model.pack (.finite s m e hm)).unpack = _ from
        unpack_pack_infinite (not_le.mp hle)]
      nofun

theorem notMinusZero_add (h : NotMinusZero x ∨ NotMinusZero y) : NotMinusZero (x + y) := by
  by_cases hfinite : x.isFinite = true ∧ y.isFinite = true
  · have hx := isRounded_of_isFinite hfinite.1
    have hy := isRounded_of_isFinite hfinite.2
    exact unpack_pack_ne (roundsTo_add hx hy).rounded (add_ne hx hy h)
  · rw [not_and_or, Bool.not_eq_true, Bool.not_eq_true] at hfinite
    obtain ⟨-, hspecial⟩ := unpack_add hfinite
    intro hzero
    rw [hzero] at hspecial
    cases hspecial

theorem notMinusZero_foldl {xs : List Float} {t : RunningTotal} (h : NotMinusZero t.total) :
    NotMinusZero (xs.foldl RunningTotal.add t).total :=
  List.foldlRecOn (motive := fun t : RunningTotal => NotMinusZero t.total) xs RunningTotal.add h
    fun _ ht _ _ => notMinusZero_add (.inl ht)

theorem notMinusZero_compensatedSum (xs : List Float) : NotMinusZero (compensatedSum xs) := by
  cases xs with
  | nil => exact notMinusZero_zero
  | cons x xs =>
    have htotal : NotMinusZero (xs.foldl RunningTotal.add ⟨x + 0.0, 0.0⟩).total :=
      notMinusZero_foldl (notMinusZero_add (.inr notMinusZero_zero))
    rw [compensatedSum, RunningTotal.result]
    split
    · exact notMinusZero_add (.inl htotal)
    · exact htotal

theorem compensatedSum_singleton (x : Float) : compensatedSum [x] = x + 0.0 := by
  have hlost : ((0.0 : Float) != 0.0) = false := by decide
  simp [compensatedSum, RunningTotal.result, hlost]

theorem notMinusZero_sum (vs : List (LoadVector Float)) (r : Resource) :
    NotMinusZero ((LoadVector.sum vs).get r) :=
  sum_induction notMinusZero_zero fun _ _ _ hx => notMinusZero_add (.inl hx)

end Sums

end Decimal

end ClusterBalance
