import ClusterBalance.Decimal.Binary64

/-! The arithmetic of the statistics. They are defined over any type of scalars, so that the same
definitions run on doubles and can be read over exact numbers. -/

namespace ClusterBalance

/-- What can go wrong in arithmetic: a finite number whose square is too large, the root of a
negative number, and a whole number beyond the scalars. -/
inductive ArithmeticError where
  | squareTooLarge
  | negativeRoot
  | wholeTooLarge
  deriving DecidableEq, Repr

/-- The text of an arithmetic error. -/
def ArithmeticError.message : ArithmeticError → String
  | squareTooLarge => "(34, 'Numerical result out of range')"
  | negativeRoot => "math domain error"
  | wholeTooLarge => "int too large to convert to float"

/-- The numbers that loads, capacities and their statistics are made of. -/
class Scalar (α : Type) extends Zero α, Add α, Sub α, Mul α, Div α, LE α, LT α where
  leDecidable : DecidableLE α
  ltDecidable : DecidableLT α
  /-- A count as a scalar. -/
  ofNat : Nat → α
  /-- A whole number as a scalar, if it is not too large. -/
  ofInt? : Int → Except ArithmeticError α
  /-- The quotient of two whole numbers, the divisor not being zero. -/
  ratio : Int → Int → α
  /-- The distance from zero. -/
  abs : α → α
  isInfinite : α → Bool
  /-- The second power, unless that of a finite scalar is too large. -/
  square? : α → Except ArithmeticError α
  sqrt? : α → Except ArithmeticError α
  /-- The sum of a list, with the rounding errors of its additions made up for. -/
  total : List α → α
  /-- The greatest finite scalar that a measurement can be. -/
  largest : α
  /-- The relative distance within which two scalars count as equal. -/
  tolerance : α

namespace Scalar

variable {α : Type} [Scalar α]

instance : DecidableLE α := leDecidable

instance : DecidableLT α := ltDecidable

/-- Whether two scalars compare as equal. -/
def same (a b : α) : Bool := a ≤ b && b ≤ a

/-- Whether a scalar compares as equal to zero. -/
def isZero (a : α) : Bool := same a 0

/-- The greater scalar; the first, unless the second is strictly greater. -/
def larger (a b : α) : α := if a < b then b else a

/-- The smaller scalar; the first, unless the second is strictly smaller. -/
def smaller (a b : α) : α := if b < a then b else a

/-- The plain sum of a list, from the left. -/
def sum (xs : List α) : α := xs.foldl (· + ·) 0

/-- Whether two scalars are equal up to a tolerance relative to the greater of them. An infinite
scalar is near to nothing but itself. -/
def near (tolerance a b : α) : Bool :=
  same a b ||
    (!isInfinite a && !isInfinite b &&
      (abs (b - a) ≤ abs (tolerance * b) || abs (b - a) ≤ abs (tolerance * a)))

end Scalar

/-- A running sum and the rounding errors that its additions left behind. -/
structure RunningTotal where
  total : Float
  lost : Float

/-- Adds a number and keeps what the addition rounds off. -/
def RunningTotal.add (t : RunningTotal) (x : Float) : RunningTotal :=
  let total := t.total + x
  let lost :=
    if t.total.abs ≥ x.abs then (t.total - total) + x else (x - total) + t.total
  ⟨total, t.lost + lost⟩

/-- The sum with the rounding errors put back, as far as they are a number at all. -/
def RunningTotal.result (t : RunningTotal) : Float :=
  if t.lost != 0.0 && t.lost.isFinite then t.total + t.lost else t.total

/-- The compensated sum of a list of doubles. -/
def compensatedSum : List Float → Float
  | [] => 0.0
  | x :: xs => (xs.foldl RunningTotal.add ⟨x + 0.0, 0.0⟩).result

/-- The doubles. Their squares are correctly rounded products. A power function with the exponent
two can give another last bit, but it is finite exactly where the product is. -/
instance : Scalar Float where
  zero := 0.0
  toAdd := inferInstance
  toSub := inferInstance
  toMul := inferInstance
  toDiv := inferInstance
  toLE := inferInstance
  toLT := inferInstance
  leDecidable := fun a b => inferInstanceAs (Decidable (a ≤ b))
  ltDecidable := fun a b => inferInstanceAs (Decidable (a < b))
  ofNat := fun n => Decimal.nearestRatio n 1
  ofInt? := fun n =>
    match Decimal.ofWhole? n with
    | some x => .ok x
    | none => .error .wholeTooLarge
  ratio := Decimal.nearestRatio
  abs := Float.abs
  isInfinite := Float.isInf
  square? := fun x =>
    if x.isFinite && (x * x).isInf then .error .squareTooLarge else .ok (x * x)
  sqrt? := fun x => if x < 0.0 then .error .negativeRoot else .ok x.sqrt
  total := compensatedSum
  largest := Decimal.ofMagnitude false (Decimal.infinityBits - 1)
  tolerance := 1e-9

end ClusterBalance
