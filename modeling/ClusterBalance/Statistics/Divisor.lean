import ClusterBalance.Statistics.Error

/-! What totals are divided by: as a rule a count, but any number will do. No total is divided by
zero. -/

namespace ClusterBalance

/-- A number in the place of a count. -/
inductive Divisor (α : Type) where
  | count (n : Int)
  | number (x : α)

section Division

variable {α : Type} [Scalar α]

/-- A quotient, unless the divisor is zero. -/
def divide (quantity : Quantity) (x y : α) : Except StatsError α :=
  if Scalar.isZero y then .error (.degenerate quantity) else .ok (x / y)

/-- A quotient by a count, unless that is zero. -/
def divideByCount (quantity : Quantity) (x : α) (n : Int) : Except StatsError α :=
  if n = 0 then .error (.degenerate quantity)
  else do return x / (← StatsError.lift (Scalar.ofInt? n))

/-- A quotient of two counts, unless the second is zero. -/
def countRatio (quantity : Quantity) (m n : Int) : Except StatsError α :=
  if n = 0 then .error (.degenerate quantity) else .ok (Scalar.ratio m n)

namespace Divisor

/-- A scalar divided. -/
def divide (quantity : Quantity) (x : α) : Divisor α → Except StatsError α
  | count n => divideByCount quantity x n
  | number y => ClusterBalance.divide quantity x y

/-- A count divided. -/
def divideCount (quantity : Quantity) (m : Int) : Divisor α → Except StatsError α
  | count n => countRatio quantity m n
  | number y =>
    if Scalar.isZero y then .error (.degenerate quantity)
    else do return (← StatsError.lift (Scalar.ofInt? m)) / y

end Divisor

end Division

end ClusterBalance
