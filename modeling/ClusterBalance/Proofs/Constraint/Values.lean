import ClusterBalance.Constraint
import ClusterBalance.Proofs.Chain
import ClusterBalance.Proofs.Decimal.Comparison

/-! The values of a constraint, by their part and their resource. Main statement: a revision gives a
constraint exactly if that has the given values, converted, and for the rest the values from before,
and they are all admitted. -/

namespace ClusterBalance.Constraint

/-- The two kinds of values. -/
inductive Part where
  | percentage
  | threshold
  deriving DecidableEq, Repr

/-- The values that a part admits. -/
def Part.Admits : Part → Float → Prop
  | percentage, x => 1.0 < x
  | threshold, x => 0.0 < x ∧ x ≤ 1.0

/-- The values of one part. -/
def part {α : Type} (c : Constraint α) : Part → PerResource α
  | .percentage => c.percentage
  | .threshold => c.threshold

/-- The value of a resource in a part. -/
def value {α : Type} (c : Constraint α) (p : Part) (r : Resource) : α := (c.part p).get r

/-- All values are admitted. -/
def Admitted (c : Constraint Float) : Prop := ∀ (p : Part) r, p.Admits (c.value p r)

namespace Overrides

variable {β : Type}

/-- The new values of one part. -/
def part (o : Overrides β) : Part → PerResource (Option β)
  | .percentage => o.percentage
  | .threshold => o.threshold

/-- The new value of a resource in a part, if one is given. -/
def given (o : Overrides β) (p : Part) (r : Resource) : Option β := (o.part p).get r

/-- The new values that a function gives. -/
def ofFn (f : Part → Resource → Option β) : Overrides β :=
  ⟨.ofFn (f .percentage), .ofFn (f .threshold)⟩

@[simp] theorem given_ofFn (f : Part → Resource → Option β) (p : Part) (r : Resource) :
    (ofFn f).given p r = f p r := by
  cases p <;> simp [given, part, ofFn]

end Overrides

section Judging

variable {c k : Constraint Float} {p : Part} {r : Resource} {x : Float}

theorem isNaN_of_admits (h : p.Admits x) : x.isNaN = false := by
  cases p with
  | percentage => exact (Decimal.isNaN_of_lt h).2
  | threshold => exact (Decimal.isNaN_of_lt h.1).2

theorem ext_value (h : ∀ p r, c.value p r = k.value p r) : c = k := by
  obtain ⟨percentage, threshold⟩ := c
  obtain ⟨percentage', threshold'⟩ := k
  have hpercentage : percentage = percentage' := PerResource.ext_get (h .percentage)
  have hthreshold : threshold = threshold' := PerResource.ext_get (h .threshold)
  rw [hpercentage, hthreshold]

theorem admitsPercentage_iff : admitsPercentage x = true ↔ Part.percentage.Admits x :=
  decide_eq_true_iff

theorem admitsThreshold_iff : admitsThreshold x = true ↔ Part.threshold.Admits x := by
  rw [admitsThreshold, Bool.and_eq_true, decide_eq_true_iff, decide_eq_true_iff]
  rfl

theorem find?_all_eq_none_iff {admits : Float → Bool} {values : PerResource Float} :
    Resource.all.find? (fun r => !admits (values.get r)) = none ↔
      ∀ r, admits (values.get r) = true := by
  simp only [List.find?_eq_none, Bool.not_eq_true', Bool.not_eq_false]
  exact ⟨fun h r => h r (Resource.mem_all r), fun h r _ => h r⟩

/-- A constraint is made of values that are all admitted: neither search ends with one that is
not. -/
theorem make_eq_ok_iff {percentage threshold : PerResource Float} :
    make percentage threshold = .ok c ↔ c = ⟨percentage, threshold⟩ ∧ c.Admitted := by
  have hadmitted : (⟨percentage, threshold⟩ : Constraint Float).Admitted ↔
      Resource.all.find? (fun r => !admitsPercentage (percentage.get r)) = none ∧
        Resource.all.find? (fun r => !admitsThreshold (threshold.get r)) = none := by
    simp only [find?_all_eq_none_iff, admitsPercentage_iff, admitsThreshold_iff]
    constructor
    · exact fun h => ⟨h .percentage, h .threshold⟩
    · rintro ⟨hpercentage, hthreshold⟩ (_ | _)
      · exact hpercentage
      · exact hthreshold
  unfold make
  split
  next r hr =>
    refine iff_of_false nofun ?_
    rintro ⟨rfl, h⟩
    rw [(hadmitted.mp h).1] at hr
    cases hr
  next hpercentage =>
    split
    next r hr =>
      refine iff_of_false nofun ?_
      rintro ⟨rfl, h⟩
      rw [(hadmitted.mp h).2] at hr
      cases hr
    next hthreshold =>
      constructor
      · intro h
        cases h
        exact ⟨rfl, hadmitted.mpr ⟨hpercentage, hthreshold⟩⟩
      · rintro ⟨rfl, -⟩
        rfl

theorem admitted_default : default.Admitted := by
  have hall : (Resource.all.all fun r => admitsPercentage (default.percentage.get r) &&
      admitsThreshold (default.threshold.get r)) = true := by
    decide +kernel
  have hboth (r : Resource) := Bool.and_eq_true_iff.mp
    (List.all_eq_true.mp hall r (Resource.mem_all r))
  rintro (_ | _) r
  · exact admitsPercentage_iff.mp (hboth r).1
  · exact admitsThreshold_iff.mp (hboth r).2

/-- Overrides replace the values that they give, and what comes out has to be admitted. -/
theorem override_eq_ok_iff {o : Overrides Float} :
    c.override o = .ok k ↔
      k.Admitted ∧ ∀ p r, k.value p r = (o.given p r).getD (c.value p r) := by
  have hvalue (p : Part) (r : Resource) :
      value ⟨replaceSome c.percentage o.percentage, replaceSome c.threshold o.threshold⟩ p r =
        (o.given p r).getD (c.value p r) := by
    cases p <;> simp [value, part, Overrides.given, Overrides.part, replaceSome]
  rw [override, make_eq_ok_iff, And.comm]
  refine and_congr_right fun _ => ⟨?_, fun h => ext_value fun p r => ?_⟩
  · rintro rfl
    exact hvalue
  · rw [h, hvalue]

end Judging

section Conversion

/-- A value is given in place of another one: it is kept, or the given one is converted. -/
inductive Becomes : Option Document → Float → Float → Prop
  | kept (x : Float) : Becomes none x x
  | given (value : Document) (x y : Float) (h : value.convert = .float y) : Becomes (some value) x y

variable {c k : Constraint Float} {o : Overrides Document} {x y z : Float}

/-- Of two values given one after the other the second counts. -/
theorem Becomes.trans {first second : Option Document} (h : Becomes first x y)
    (h' : Becomes second y z) : Becomes (second.or first) x z := by
  cases h' with
  | kept => exact h
  | given value _ _ hvalue => exact .given value x z hvalue

/-- The floats that given values convert to. -/
abbrev Converted : Option Document → Option Float → Prop :=
  Option.Rel fun value x => value.convert = .float x

theorem becomes_iff {given : Option Document} {new : Option Float} (h : Converted given new) :
    Becomes given x y ↔ y = new.getD x := by
  cases h with
  | none =>
    constructor
    · rintro ⟨⟩
      rfl
    · rintro rfl
      exact .kept _
  | @some value z hz =>
    constructor
    · rintro (_ | ⟨_, _, _, hy⟩)
      cases hy.symm.trans hz
      rfl
    · rintro rfl
      exact .given value x _ hz

theorem convertValue_eq_ok_iff {value : Document} :
    convertValue value = .ok x ↔ value.convert = .float x := by
  unfold convertValue
  cases value.convert <;> simp

theorem convertAll_eq_ok_iff {values : PerResource (Option Document)}
    {news : PerResource (Option Float)} :
    convertAll values = .ok news ↔ ∀ r, Converted (values.get r) (news.get r) := by
  rw [convertAll, PerResource.ofFnM_eq_ok_iff]
  refine forall_congr' fun r => ?_
  cases values.get r with
  | none => cases news.get r <;> simp
  | some value =>
    cases hnew : news.get r <;>
      cases hvalue : convertValue value <;> simp [← convertValue_eq_ok_iff, hvalue]

theorem convert_eq_ok_iff {news : Overrides Float} :
    o.convert = .ok news ↔ ∀ p r, Converted (o.given p r) (news.given p r) := by
  obtain ⟨percentage, threshold⟩ := news
  have hparts : o.convert = .ok ⟨percentage, threshold⟩ ↔
      convertAll o.percentage = .ok percentage ∧ convertAll o.threshold = .ok threshold := by
    rw [Overrides.convert]
    cases convertAll o.percentage <;> cases convertAll o.threshold <;>
      simp [bind, Except.bind, pure, Except.pure]
  rw [hparts, convertAll_eq_ok_iff, convertAll_eq_ok_iff]
  constructor
  · rintro ⟨hpercentage, hthreshold⟩ (_ | _)
    · exact hpercentage
    · exact hthreshold
  · exact fun h => ⟨h .percentage, h .threshold⟩

/-- A revision gives a constraint of admitted values: those that are given, converted, and for the
rest the values from before. -/
theorem revise_eq_ok_iff :
    c.revise o = .ok k ↔
      k.Admitted ∧ ∀ p r, Becomes (o.given p r) (c.value p r) (k.value p r) := by
  refine bind_eq_ok_iff.trans ⟨?_, ?_⟩
  · rintro ⟨news, hnews, h⟩
    obtain ⟨hadmitted, hvalue⟩ := override_eq_ok_iff.mp h
    refine ⟨hadmitted, fun p r => ?_⟩
    rw [becomes_iff (convert_eq_ok_iff.mp hnews p r)]
    exact hvalue p r
  · rintro ⟨hadmitted, hbecomes⟩
    -- the conversions are read off the new constraint, where a value is given
    have hconverted (p : Part) (r : Resource) :
        Converted (o.given p r) ((o.given p r).map fun _ => k.value p r) := by
      have h := hbecomes p r
      cases hgiven : o.given p r with
      | none => exact .none
      | some value =>
        rw [hgiven] at h
        cases h with
        | given _ _ _ hvalue => exact .some hvalue
    refine ⟨.ofFn fun p r => (o.given p r).map fun _ => k.value p r, ?_, ?_⟩
    · rw [convert_eq_ok_iff]
      intro p r
      rw [Overrides.given_ofFn]
      exact hconverted p r
    · rw [override_eq_ok_iff]
      refine ⟨hadmitted, fun p r => ?_⟩
      rw [Overrides.given_ofFn]
      exact (becomes_iff (hconverted p r)).mp (hbecomes p r)

end Conversion

end ClusterBalance.Constraint
