import ClusterBalance.Decimal.Binary64

/-! Whole numbers of any size and doubles side by side, compared by their exact values. -/

namespace ClusterBalance.Decimal

/-- A number as it is written: a whole number or a double. -/
inductive Mixed where
  | whole (n : Int)
  | double (x : Float)

namespace Mixed

/-- The double nearest to a number, if a finite one is near a whole number. -/
def toFloat? : Mixed → Option Float
  | whole n => ofWhole? n
  | double x => some x

/-- The double nearest to a number; infinite where a whole number is too large for a finite one. -/
def nearest : Mixed → Float
  | whole n => nearestRatio n 1
  | double x => x

/-- Whether a number is below zero. -/
def isNegative : Mixed → Bool
  | whole n => n < 0
  | double x => x < 0.0

/-- How a whole number compares with `significand * 2 ^ exponent`, with the given sign. -/
def compareWhole (n : Int) (negative : Bool) (significand : Nat) (exponent : Int) : Ordering :=
  let (num, den) := scaleBinary significand 1 exponent
  compare (n * den) (if negative then -(num : Int) else num)

/-- Whether a whole number is at most a double. -/
def wholeLe (n : Int) (x : Float) : Bool :=
  match Reading.ofFloat x with
  | .nan => false
  | .infinite negative => !negative
  | .finite negative significand exponent =>
    (compareWhole n negative significand exponent).isLE

/-- Whether a whole number is at least a double. -/
def wholeGe (n : Int) (x : Float) : Bool :=
  match Reading.ofFloat x with
  | .nan => false
  | .infinite negative => negative
  | .finite negative significand exponent =>
    (compareWhole n negative significand exponent).isGE

/-- Whether the exact value of the first number is at most that of the second. -/
def le : Mixed → Mixed → Bool
  | whole m, whole n => m ≤ n
  | whole n, double x => wholeLe n x
  | double x, whole n => wholeGe n x
  | double x, double y => x ≤ y

/-- Numbers are equal if their exact values are. -/
instance : BEq Mixed := ⟨fun a b => a.le b && b.le a⟩

/-- How the exact values of two numbers compare, unless one of them is not a number. -/
def compare? (a b : Mixed) : Option Ordering :=
  if a.le b then some (if b.le a then .eq else .lt)
  else if b.le a then some .gt
  else none

end Mixed

end ClusterBalance.Decimal
