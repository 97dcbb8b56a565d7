import ClusterBalance.Scalar

/-! The band of utilization fractions in which a broker counts as balanced. -/

namespace ClusterBalance

/-- A band of fractions with both bounds inside. -/
structure Band (α : Type) where
  lower : α
  upper : α
  deriving BEq, DecidableEq, Repr

namespace Band

section Scalar

variable {α : Type} [Scalar α]

/-- Whether a fraction lies in the band, where a fraction near a bound, up to the tolerance, counts
as on it. -/
def containsWithin (tolerance : α) (band : Band α) (fraction : α) : Bool :=
  (band.lower ≤ fraction || Scalar.near tolerance fraction band.lower) &&
    (fraction ≤ band.upper || Scalar.near tolerance fraction band.upper)

/-- Whether a fraction lies in the band, up to rounding. -/
def contains (band : Band α) (fraction : α) : Bool :=
  band.containsWithin Scalar.tolerance fraction

/-- The band around an average fraction. A percentage of two or more admits every fraction below
the average. -/
def around (average percentage : α) : Band α where
  lower := average * Scalar.larger 0 (Scalar.ofNat 2 - percentage)
  upper := average * percentage

end Scalar

end Band

end ClusterBalance
