import ClusterBalance.LoadVector
import ClusterBalance.Proofs.Decimal.Rounding

/-! Sums of doubles that are not below zero. Main statement: no such sum is below zero, neither the
plain one nor the compensated one, whatever is rounded off or overflows on the way. -/

namespace ClusterBalance

namespace Decimal

open Float.Model Float.Model.UnpackedFloat

variable {x y : Float} {u v : UnpackedFloat} {q : ℚ}

section Special

/-- An unpacked double that is no finite number. -/
inductive IsSpecial : UnpackedFloat → Prop
  | infinity (s : Sign) : IsSpecial (.infinity s)
  | notANumber : IsSpecial .notANumber

theorem isSpecial_of_isFinite (h : x.isFinite = false) : IsSpecial x.toModel.unpack := by
  change x.toModel.unpack.isFinite = false at h
  cases hx : x.toModel.unpack with
  | infinity s => exact .infinity s
  | notANumber => exact .notANumber
  | zero s =>
    rw [hx] at h
    cases h
  | finite s m e hm =>
    rw [hx] at h
    cases h

theorem unpack_pack_of_isSpecial (h : IsSpecial u) : (Float.Model.pack u).unpack = u := by
  cases h with
  | infinity s => cases s <;> rfl
  | notANumber => rfl

theorem isSpecial_add (h : IsSpecial u ∨ IsSpecial v) :
    IsSpecial (UnpackedFloat.add .binary64 u v) := by
  rcases h with ⟨⟨s⟩ | _⟩ | ⟨⟨s⟩ | _⟩
  · rcases v with s' | _ | s' | _
    · cases s <;> cases s' <;> constructor
    all_goals constructor
  · constructor
  · rcases u with s' | _ | s' | _
    · cases s <;> cases s' <;> constructor
    all_goals constructor
  · rcases u with s' | _ | s' | _ <;> constructor

/-- What is no finite number is not rounded when it is added to. -/
theorem unpack_add (h : x.isFinite = false ∨ y.isFinite = false) :
    (x + y).toModel.unpack =
        UnpackedFloat.add .binary64 x.toModel.unpack y.toModel.unpack ∧
      IsSpecial (x + y).toModel.unpack := by
  have hspecial := isSpecial_add (h.imp isSpecial_of_isFinite isSpecial_of_isFinite)
  have hunpack := unpack_pack_of_isSpecial hspecial
  exact ⟨hunpack, hunpack.symm ▸ hspecial⟩

theorem isFinite_of_add (h : (x + y).isFinite = true) : x.isFinite = true ∧ y.isFinite = true := by
  by_contra hnot
  rw [not_and_or, Bool.not_eq_true, Bool.not_eq_true] at hnot
  obtain ⟨-, hspecial⟩ := unpack_add hnot
  change (x + y).toModel.unpack.isFinite = true at h
  generalize (x + y).toModel.unpack = u at h hspecial
  cases hspecial <;> cases h

end Special

section NotNegative

/-- A double that is not below zero. It may be infinite, or no number. -/
def NotNegative (x : Float) : Prop := ¬x < 0.0

theorem unpack_zero : (0.0 : Float).toModel.unpack = .zero .positive := by
  have hmagnitude : (0.0 : Float) = ofMagnitude false 0 := by decide
  rw [hmagnitude, unpack_ofMagnitude _ (Nat.zero_le _), valueOf_zero]
  rfl

theorem value_zero : value 0.0 = 0 := by
  rw [value, unpack_zero]
  rfl

theorem isFinite_zero : (0.0 : Float).isFinite = true := by decide

theorem isNaN_zero : (0.0 : Float).isNaN = false := isNaN_of_isFinite isFinite_zero

theorem notNegative_iff_value (h : x.isFinite = true) : NotNegative x ↔ 0 ≤ value x := by
  rw [NotNegative, lt_iff_value h isFinite_zero, value_zero, not_lt]

/-- Beyond the finite numbers only negative infinity is below zero. -/
theorem notNegative_iff_unpack (h : x.isFinite = false) :
    NotNegative x ↔ x.toModel.unpack ≠ .infinity .negative := by
  have hspecial := isSpecial_of_isFinite h
  rw [NotNegative, lt_iff_compare, unpack_zero]
  generalize x.toModel.unpack = u at hspecial
  rcases hspecial with ⟨_ | _⟩ | _
  · exact iff_of_false (fun hlt => hlt rfl) (fun hne => hne rfl)
  · exact iff_of_true nofun nofun
  · exact iff_of_true nofun nofun

theorem Rounds.notNegative (h : Rounds q x) (hq : 0 ≤ q) : NotNegative x := by
  cases hfinite : x.isFinite with
  | true =>
    rw [notNegative_iff_value hfinite]
    exact (h.nearest hfinite).le_of_le .zero hq
  | false =>
    rw [notNegative_iff_unpack hfinite, h.infinite hfinite, decide_eq_false (not_lt.mpr hq)]
    nofun

/-- A sum is negative infinity only if it overflows or one of its parts is. -/
theorem add_ne_negative (hu : u ≠ .infinity .negative) (hv : v ≠ .infinity .negative)
    (hspecial : IsSpecial u ∨ IsSpecial v) :
    UnpackedFloat.add .binary64 u v ≠ .infinity .negative := by
  rcases hspecial with ⟨⟨s⟩ | _⟩ | ⟨⟨s⟩ | _⟩
  · cases s with
    | negative => exact absurd rfl hu
    | positive => rcases v with (_ | _) | _ | _ | _ <;> nofun
  · nofun
  · cases s with
    | negative => exact absurd rfl hv
    | positive => rcases u with (_ | _) | _ | _ | _ <;> nofun
  · rcases u with _ | _ | _ | _ <;> nofun

theorem NotNegative.unpack_ne (h : NotNegative x) : x.toModel.unpack ≠ .infinity .negative := by
  cases hfinite : x.isFinite with
  | true =>
    intro hx
    change x.toModel.unpack.isFinite = true at hfinite
    rw [hx] at hfinite
    cases hfinite
  | false => exact (notNegative_iff_unpack hfinite).mp h

/-- Adding to an infinite double that is not below zero does not bring it there. -/
theorem notNegative_add_of_special (hx : x.toModel.unpack ≠ .infinity .negative)
    (hy : y.toModel.unpack ≠ .infinity .negative) (h : x.isFinite = false ∨ y.isFinite = false) :
    NotNegative (x + y) := by
  obtain ⟨hunpack, hspecial⟩ := unpack_add h
  have hfinite : (x + y).isFinite = false := by
    change (x + y).toModel.unpack.isFinite = false
    generalize (x + y).toModel.unpack = u at hspecial
    cases hspecial <;> rfl
  rw [notNegative_iff_unpack hfinite, hunpack]
  exact add_ne_negative hx hy (h.imp isSpecial_of_isFinite isSpecial_of_isFinite)

theorem notNegative_add (hx : NotNegative x) (hy : NotNegative y) : NotNegative (x + y) := by
  by_cases hfinite : x.isFinite = true ∧ y.isFinite = true
  · obtain ⟨hx', hy'⟩ := hfinite
    rw [notNegative_iff_value hx'] at hx
    rw [notNegative_iff_value hy'] at hy
    exact (rounds_add hx' hy').notNegative (add_nonneg hx hy)
  · rw [not_and_or, Bool.not_eq_true, Bool.not_eq_true] at hfinite
    exact notNegative_add_of_special hx.unpack_ne hy.unpack_ne hfinite

theorem notNegative_zero : NotNegative 0.0 := by
  rw [notNegative_iff_value isFinite_zero, value_zero]

end NotNegative

section Compensated

/-- A running sum covers what was rounded off so far: taking that off does not lead below zero. -/
structure Covers (t : RunningTotal) : Prop where
  total : NotNegative t.total
  lost : t.total.isFinite = true → t.lost.isFinite = true → -value t.total ≤ value t.lost

/-- The rounding error of an addition is not less than the share of the sum that the first of the
numbers does not account for. The difference of the greater number and the sum is not rounded, as
they differ by a factor of two at most. -/
theorem le_error {t x d c s : ℚ} (ht : 0 ≤ t) (hx : 0 ≤ x) (hgt : OnGrid t) (hgx : OnGrid x)
    (hgs : OnGrid s) (hs : IsNearest (t + x) s)
    (h : x ≤ t ∧ IsNearest (t - s) d ∧ IsNearest (d + x) c ∨
      t ≤ x ∧ IsNearest (x - s) d ∧ IsNearest (d + t) c) : t - s ≤ c := by
  rcases h with ⟨hle, hd, hc⟩ | ⟨hle, hd, hc⟩
  · have hlow : t ≤ s := hs.le_of_le hgt (by linarith)
    have hhigh : s ≤ 2 * t := hs.ge_of_ge hgt.double (by linarith)
    have hgrid : OnGrid (t - s) := by
      rw [← neg_sub]
      exact (hgt.sub_of_le_double hgs ht hlow hhigh).neg
    rw [hd.eq_of_onGrid hgrid] at hc
    exact hc.le_of_le hgrid (by linarith)
  · have hlow : x ≤ s := hs.le_of_le hgx (by linarith)
    have hhigh : s ≤ 2 * x := hs.ge_of_ge hgx.double (by linarith)
    have hgrid : OnGrid (x - s) := by
      rw [← neg_sub]
      exact (hgx.sub_of_le_double hgs hx hlow hhigh).neg
    rw [hd.eq_of_onGrid hgrid] at hc
    -- the sum is off by no more than the lesser number, as the greater one is on the grid
    have hoff := hs x hgx
    rw [show x - (t + x) = -t by ring, abs_neg, abs_of_nonneg ht, abs_le] at hoff
    have hdouble : 2 * t ≤ s := hs.le_of_le hgt.double (by linarith)
    have hge : -t ≤ c := hc.le_of_le hgt.neg (by linarith)
    linarith

theorem unpack_abs (h : x.isFinite = true) : x.abs.toModel.unpack = x.toModel.unpack.abs := by
  obtain ⟨hrounded, hexponent⟩ := unpack_of_isFinite h
  change (Float.Model.pack x.toModel.unpack.abs).unpack = _
  generalize x.toModel.unpack = u at hrounded hexponent ⊢
  cases hrounded with
  | zero s =>
    change (Float.Model.pack (.zero .positive)).unpack = .zero .positive
    rfl
  | @finite s m e hm hcanonical =>
    change (Float.Model.pack (.finite .positive m e hm)).unpack = .finite .positive m e hm
    exact unpack_pack_finite hcanonical (hexponent s m e hm rfl)

theorem amount_abs (u : UnpackedFloat) : amount u.abs = |amount u| := by
  rcases u with _ | _ | _ | ⟨_ | _, m, e, hm⟩
  case finite.positive => exact (abs_of_pos amount_pos).symm
  case finite.negative =>
    have hneg : amount (.finite .negative m e hm) = -amount (.finite .positive m e hm) := by
      simp [amount, Sign.apply]
    rw [hneg, abs_neg, abs_of_pos amount_pos]
    rfl
  all_goals exact abs_zero.symm

theorem value_abs (h : x.isFinite = true) : value x.abs = |value x| := by
  rw [value, unpack_abs h, amount_abs, value]

theorem isFinite_abs (h : x.isFinite = true) : x.abs.isFinite = true := by
  change x.abs.toModel.unpack.isFinite = true
  rw [unpack_abs h]
  change x.toModel.unpack.isFinite = true at h
  generalize x.toModel.unpack = u at h ⊢
  cases u <;> first | rfl | cases h

theorem RunningTotal.lost_add (t : RunningTotal) (x : Float) :
    (t.add x).lost = t.lost + if x.abs ≤ t.total.abs then t.total - (t.total + x) + x
      else x - (t.total + x) + t.total := rfl

theorem Covers.add {t : RunningTotal} (h : Covers t) (hx : NotNegative x) :
    Covers (t.add x) := by
  refine ⟨notNegative_add h.total hx, fun htotal hlost => ?_⟩
  change (t.total + x).isFinite = true at htotal
  change -value (t.total + x) ≤ _
  obtain ⟨ht', hx'⟩ := isFinite_of_add htotal
  have ht := (notNegative_iff_value ht').mp h.total
  have hx'' := (notNegative_iff_value hx').mp hx
  have hsum := (rounds_add ht' hx').nearest htotal
  have herror {d c : ℚ} := le_error (d := d) (c := c) ht hx'' (onGrid_value ht')
    (onGrid_value hx') (onGrid_value htotal) hsum
  rw [RunningTotal.lost_add] at hlost ⊢
  obtain ⟨hlost', hc⟩ := isFinite_of_add hlost
  -- the new total is on the grid, so it is enough to bound the errors before they are rounded
  apply ((rounds_add hlost' hc).nearest hlost).le_of_le (onGrid_value htotal).neg
  have hlow := h.lost ht' hlost'
  have horder : x.abs ≤ t.total.abs ↔ value x ≤ value t.total := by
    rw [le_iff_value (isFinite_abs hx') (isFinite_abs ht'), value_abs hx',
      value_abs ht', abs_of_nonneg ((notNegative_iff_value hx').mp hx),
      abs_of_nonneg ((notNegative_iff_value ht').mp h.total)]
  split at hc
  next hle =>
    rw [if_pos hle]
    obtain ⟨hd, -⟩ := isFinite_of_add hc
    have hlost := herror (.inl ⟨horder.mp hle, (rounds_sub ht' htotal).nearest hd,
      (rounds_add hd hx').nearest hc⟩)
    linarith
  next hnot =>
    rw [if_neg hnot]
    obtain ⟨hd, -⟩ := isFinite_of_add hc
    have hle := (not_le.mp (horder.not.mp hnot)).le
    have hlost := herror (.inr ⟨hle, (rounds_sub hx' htotal).nearest hd,
      (rounds_add hd ht').nearest hc⟩)
    linarith

theorem Covers.foldl {xs : List Float} {t : RunningTotal} (h : Covers t)
    (hxs : ∀ x ∈ xs, NotNegative x) : Covers (xs.foldl RunningTotal.add t) :=
  List.foldlRecOn xs RunningTotal.add h fun _ ht x hx => ht.add (hxs x hx)

/-- Putting the rounding errors back does not bring a sum below zero. -/
theorem Covers.notNegative_result {t : RunningTotal} (h : Covers t) : NotNegative t.result := by
  unfold RunningTotal.result
  split
  next hlost =>
    have hlost : t.lost.isFinite = true := (Bool.and_eq_true_iff.mp hlost).2
    cases htotal : t.total.isFinite with
    | true =>
      apply (rounds_add htotal hlost).notNegative
      linarith [h.lost htotal hlost]
    | false =>
      refine notNegative_add_of_special h.total.unpack_ne ?_ (.inl htotal)
      intro hinfinite
      change t.lost.toModel.unpack.isFinite = true at hlost
      rw [hinfinite] at hlost
      cases hlost
  next => exact h.total

theorem notNegative_compensatedSum {xs : List Float} (h : ∀ x ∈ xs, NotNegative x) :
    NotNegative (compensatedSum xs) := by
  cases xs with
  | nil => exact notNegative_zero
  | cons x xs =>
    obtain ⟨hx, hxs⟩ := List.forall_mem_cons.mp h
    have htotal := notNegative_add hx notNegative_zero
    refine Covers.notNegative_result (Covers.foldl ⟨htotal, fun hfinite _ => ?_⟩ hxs)
    change -value (x + 0.0) ≤ value 0.0
    rw [value_zero]
    linarith [(notNegative_iff_value hfinite).mp htotal]

end Compensated

section Vectors

variable {v w : LoadVector Float} {r : Resource}

theorem notNegative_of_negative? (h : v.negative? = none) (r : Resource) :
    NotNegative (v.get r) := by
  have hr := List.find?_eq_none.mp h r (Resource.mem_all r)
  rwa [decide_eq_true_iff] at hr

/-- What holds of zero and is kept when a part is added holds of a sum. -/
theorem sum_induction {P : Float → Prop} {vs : List (LoadVector Float)} (hzero : P 0.0)
    (hadd : ∀ v ∈ vs, ∀ x, P x → P (x + v.get r)) : P ((LoadVector.sum vs).get r) := by
  refine List.foldlRecOn (motive := fun total => P (total.get r)) vs LoadVector.add ?_ ?_
  · rw [LoadVector.empty, PerResource.replicate, PerResource.get_ofFn]
    exact hzero
  · intro total htotal v hv
    rw [LoadVector.add, PerResource.get_ofFn]
    exact hadd v hv _ htotal

theorem notNegative_sum {vs : List (LoadVector Float)} (h : ∀ v ∈ vs, NotNegative (v.get r)) :
    NotNegative ((LoadVector.sum vs).get r) :=
  sum_induction notNegative_zero fun v hv _ hx => notNegative_add hx (h v hv)

end Vectors

end Decimal

end ClusterBalance
