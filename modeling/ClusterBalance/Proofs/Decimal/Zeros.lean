import ClusterBalance.Proofs.Decimal.Products

/-! What zeros and what is no number do to sums and quotients. Main statements: sums of zeros are
zero, of either kind, and sums of numbers that are not below zero are numbers exactly if each of
them is. -/

namespace ClusterBalance

namespace Decimal

open Float.Model Float.Model.UnpackedFloat

variable {x y : Float} {u : UnpackedFloat}

section Zero

theorem beq_zero_iff : (x == 0.0) = true ↔ ∃ s, x.toModel.unpack = .zero s := by
  rw [beq_zero_eq]
  cases x.toModel.unpack with
  | zero s => exact iff_of_true rfl ⟨s, rfl⟩
  | _ => exact iff_of_false nofun nofun

theorem isInf_of_zero (h : (x == 0.0) = true) : x.isInf = false := by
  obtain ⟨s, hs⟩ := beq_zero_iff.mp h
  rw [isInf_eq, hs]
  rfl

/-- What an operation makes is zero, if it is before it is packed. -/
theorem beq_zero_ofModel_pack (h : isZero u = true) :
    (Float.ofModel (Float.Model.pack u) == 0.0) = true := by
  cases u with
  | zero s => exact beq_zero_iff.mpr ⟨s, unpack_pack_zero s⟩
  | _ => cases h

theorem zero_add_zero (hx : (x == 0.0) = true) (hy : (y == 0.0) = true) :
    (x + y == 0.0) = true := by
  obtain ⟨s, hs⟩ := beq_zero_iff.mp hx
  obtain ⟨s', hs'⟩ := beq_zero_iff.mp hy
  refine beq_zero_ofModel_pack
    (u := UnpackedFloat.add .binary64 x.toModel.unpack y.toModel.unpack) ?_
  rw [hs, hs', UnpackedFloat.add]
  split <;> rfl

theorem zero_sub_zero (hx : (x == 0.0) = true) (hy : (y == 0.0) = true) :
    (x - y == 0.0) = true := by
  obtain ⟨s, hs⟩ := beq_zero_iff.mp hx
  obtain ⟨s', hs'⟩ := beq_zero_iff.mp hy
  refine beq_zero_ofModel_pack
    (u := UnpackedFloat.sub .binary64 x.toModel.unpack y.toModel.unpack) ?_
  rw [hs, hs', UnpackedFloat.sub]
  split <;> rfl

/-- Zero is divided by everything but zero and what is no number. -/
theorem zero_div (hx : (x == 0.0) = true) (hy : (y == 0.0) = false) (hnumber : y.isNaN = false) :
    (x / y == 0.0) = true := by
  obtain ⟨s, hs⟩ := beq_zero_iff.mp hx
  rw [beq_zero_eq] at hy
  change y.toModel.unpack.isNaN = false at hnumber
  refine beq_zero_ofModel_pack
    (u := UnpackedFloat.div .binary64 x.toModel.unpack y.toModel.unpack) ?_
  rw [hs]
  generalize y.toModel.unpack = v at *
  cases v with
  | infinity s' => rfl
  | notANumber => cases hnumber
  | zero s' => cases hy
  | finite s' m e hm => rfl

theorem zero_beq_zero : ((0.0 : Float) == 0.0) = true := by decide

/-- A running sum of zeros, with nothing rounded off. -/
structure RunningTotal.IsZero (t : RunningTotal) : Prop where
  total : (t.total == 0.0) = true
  lost : (t.lost == 0.0) = true

theorem RunningTotal.IsZero.add {t : RunningTotal} (h : RunningTotal.IsZero t)
    (hx : (x == 0.0) = true) : RunningTotal.IsZero (t.add x) := by
  have htotal := zero_add_zero h.total hx
  refine ⟨htotal, ?_⟩
  rw [RunningTotal.lost_add]
  apply zero_add_zero h.lost
  split
  · exact zero_add_zero (zero_sub_zero h.total htotal) hx
  · exact zero_add_zero (zero_sub_zero hx htotal) h.total

theorem RunningTotal.IsZero.foldl {xs : List Float} {t : RunningTotal}
    (h : RunningTotal.IsZero t) (hxs : ∀ x ∈ xs, (x == 0.0) = true) :
    RunningTotal.IsZero (xs.foldl RunningTotal.add t) :=
  List.foldlRecOn xs RunningTotal.add h fun _ ht x hx => ht.add (hxs x hx)

theorem RunningTotal.IsZero.result {t : RunningTotal} (h : RunningTotal.IsZero t) :
    (t.result == 0.0) = true := by
  rw [RunningTotal.result, bne, h.lost]
  exact h.total

theorem compensatedSum_zero {xs : List Float} (h : ∀ x ∈ xs, (x == 0.0) = true) :
    (compensatedSum xs == 0.0) = true := by
  cases xs with
  | nil => exact zero_beq_zero
  | cons x xs =>
    obtain ⟨hx, hxs⟩ := List.forall_mem_cons.mp h
    have hstart : RunningTotal.IsZero ⟨x + 0.0, 0.0⟩ :=
      ⟨zero_add_zero hx zero_beq_zero, zero_beq_zero⟩
    exact (hstart.foldl hxs).result

end Zero

section Number

theorem isNaN_iff : x.isNaN = true ↔ x.toModel.unpack = .notANumber := by
  change x.toModel.unpack.isNaN = true ↔ _
  cases x.toModel.unpack with
  | notANumber => exact iff_of_true rfl rfl
  | _ => exact iff_of_false nofun nofun

/-- What an operation makes is no number, if it is none before it is packed. -/
theorem isNaN_ofModel_pack (h : u = .notANumber) :
    (Float.ofModel (Float.Model.pack u)).isNaN = true := by
  subst h
  rfl

theorem isNaN_add_of_isNaN (h : x.isNaN = true ∨ y.isNaN = true) : (x + y).isNaN = true := by
  refine isNaN_ofModel_pack
    (u := UnpackedFloat.add .binary64 x.toModel.unpack y.toModel.unpack) ?_
  rcases h with h | h
  · rw [isNaN_iff.mp h]
    rfl
  · rw [isNaN_iff.mp h]
    cases x.toModel.unpack <;> rfl

theorem isNaN_sub_of_isNaN (h : x.isNaN = true) : (x - y).isNaN = true := by
  refine isNaN_ofModel_pack
    (u := UnpackedFloat.sub .binary64 x.toModel.unpack y.toModel.unpack) ?_
  rw [isNaN_iff.mp h]
  rfl

theorem isNaN_abs_of_isNaN (h : x.isNaN = true) : x.abs.isNaN = true := by
  refine isNaN_ofModel_pack (u := x.toModel.unpack.abs) ?_
  rw [isNaN_iff.mp h]
  rfl

theorem isNaN_mul_of_isNaN (h : x.isNaN = true) : (x * y).isNaN = true := by
  refine isNaN_ofModel_pack
    (u := UnpackedFloat.mul .binary64 x.toModel.unpack y.toModel.unpack) ?_
  rw [isNaN_iff.mp h]
  rfl

theorem isNaN_div_of_isNaN (h : y.isNaN = true) : (x / y).isNaN = true := by
  refine isNaN_ofModel_pack
    (u := UnpackedFloat.div .binary64 x.toModel.unpack y.toModel.unpack) ?_
  rw [isNaN_iff.mp h]
  cases x.toModel.unpack <;> rfl

/-- A sum of numbers is one, if negative infinity is not among them. -/
theorem isNaN_add (hx : x.isNaN = false) (hy : y.isNaN = false)
    (hx' : x.toModel.unpack ≠ .infinity .negative)
    (hy' : y.toModel.unpack ≠ .infinity .negative) : (x + y).isNaN = false := by
  by_cases hfinite : x.isFinite = true ∧ y.isFinite = true
  · exact (rounds_add hfinite.1 hfinite.2).isNaN
  · rw [not_and_or, Bool.not_eq_true, Bool.not_eq_true] at hfinite
    change (x + y).toModel.unpack.isNaN = false
    rw [(unpack_add hfinite).1]
    change x.toModel.unpack.isNaN = false at hx
    change y.toModel.unpack.isNaN = false at hy
    have hspecial := hfinite.imp isSpecial_of_isFinite isSpecial_of_isFinite
    generalize x.toModel.unpack = u at *
    generalize y.toModel.unpack = v at *
    rcases hspecial with ⟨⟨_ | _⟩ | _⟩ | ⟨⟨_ | _⟩ | _⟩
    · exact absurd rfl hx'
    · rcases v with (_ | _) | _ | _ | _ <;> first | rfl | exact absurd rfl hy' | cases hy
    · cases hx
    · exact absurd rfl hy'
    · rcases u with (_ | _) | _ | _ | _ <;> first | rfl | exact absurd rfl hx' | cases hx
    · cases hy

/-- A running sum that is a number, and not below zero. -/
structure RunningTotal.IsNumber (t : RunningTotal) : Prop where
  notNegative : NotNegative t.total
  number : t.total.isNaN = false

theorem RunningTotal.IsNumber.add {t : RunningTotal} (h : RunningTotal.IsNumber t)
    (hx : NotNegative x) (hnumber : x.isNaN = false) : RunningTotal.IsNumber (t.add x) :=
  ⟨notNegative_add h.notNegative hx,
    isNaN_add h.number hnumber h.notNegative.unpack_ne hx.unpack_ne⟩

theorem RunningTotal.IsNumber.foldl {xs : List Float} {t : RunningTotal}
    (h : RunningTotal.IsNumber t) (hxs : ∀ x ∈ xs, NotNegative x)
    (hnumbers : ∀ x ∈ xs, x.isNaN = false) :
    RunningTotal.IsNumber (xs.foldl RunningTotal.add t) :=
  List.foldlRecOn xs RunningTotal.add h fun _ ht x hx => ht.add (hxs x hx) (hnumbers x hx)

/-- Only finite rounding errors are put back. -/
theorem RunningTotal.IsNumber.result {t : RunningTotal} (h : RunningTotal.IsNumber t) :
    t.result.isNaN = false := by
  unfold RunningTotal.result
  split
  next hlost =>
    have hfinite : t.lost.isFinite = true := (Bool.and_eq_true_iff.mp hlost).2
    refine isNaN_add h.number (isNaN_of_isFinite hfinite) h.notNegative.unpack_ne ?_
    intro hinfinite
    have hnot := isInf_of_isFinite hfinite
    rw [isInf_eq, hinfinite] at hnot
    cases hnot
  next => exact h.number

/-- A sum whose rounding errors are put back is a number if its parts are. -/
theorem isNaN_compensatedSum {xs : List Float} (h : ∀ x ∈ xs, NotNegative x)
    (hnumbers : ∀ x ∈ xs, x.isNaN = false) : (compensatedSum xs).isNaN = false := by
  cases xs with
  | nil => exact isNaN_zero
  | cons x xs =>
    obtain ⟨hx, hxs⟩ := List.forall_mem_cons.mp h
    obtain ⟨hnumber, hnumbers⟩ := List.forall_mem_cons.mp hnumbers
    have hstart : RunningTotal.IsNumber ⟨x + 0.0, 0.0⟩ :=
      ⟨notNegative_add hx notNegative_zero,
        isNaN_add hnumber isNaN_zero hx.unpack_ne notNegative_zero.unpack_ne⟩
    exact (hstart.foldl hxs hnumbers).result

end Number

section Vectors

variable {vs : List (LoadVector Float)} {r : Resource}

theorem sum_zero (h : ∀ v ∈ vs, (v.get r == 0.0) = true) :
    ((LoadVector.sum vs).get r == 0.0) = true :=
  sum_induction (P := fun x => (x == 0.0) = true) zero_beq_zero
    fun v hv _ hx => zero_add_zero hx (h v hv)

theorem isNaN_of_isNaN_foldl_add {start : LoadVector Float}
    (h : ((vs.foldl LoadVector.add start).get r).isNaN = false) :
    (start.get r).isNaN = false ∧ ∀ v ∈ vs, (v.get r).isNaN = false := by
  induction vs generalizing start with
  | nil => exact ⟨h, nofun⟩
  | cons v vs ih =>
    obtain ⟨hnext, hvs⟩ := ih h
    rw [LoadVector.add, PerResource.get_ofFn] at hnext
    have hparts := mt isNaN_add_of_isNaN (Bool.eq_false_iff.mp hnext)
    rw [not_or, Bool.not_eq_true, Bool.not_eq_true] at hparts
    exact ⟨hparts.1, List.forall_mem_cons.mpr ⟨hparts.2, hvs⟩⟩

/-- What is no number spoils the sum. -/
theorem isNaN_of_isNaN_sum (h : ((LoadVector.sum vs).get r).isNaN = false) :
    ∀ v ∈ vs, (v.get r).isNaN = false :=
  (isNaN_of_isNaN_foldl_add h).2

end Vectors

end Decimal

end ClusterBalance
