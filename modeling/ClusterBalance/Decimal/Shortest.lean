import ClusterBalance.Decimal.Binary64

/-! The shortest decimal that reads back as a given double: of the decimals with the fewest digits
inside the interval of values that round to the double, the one nearest to it. -/

namespace ClusterBalance.Decimal

/-- The decimal `digits * 10 ^ exponent`. -/
structure Numeral where
  digits : Nat
  exponent : Int
  deriving DecidableEq, Repr

/-- A positive fraction and the fractions halfway to the two neighbouring doubles, all over one
denominator; the halfway points belong to the interval when `closed`. -/
structure Interval where
  low : Nat
  value : Nat
  high : Nat
  denominator : Nat
  closed : Bool

/-- The values that round to `significand * 2 ^ exponent`. The gap below a power of two is half the
gap above it, except at the least exponent. -/
def Interval.around (significand : Nat) (exponent : Int) : Interval :=
  let below := if significand = hiddenBit ∧ exponent > leastExponent then 1 else 2
  let scale := fun n => (scaleBinary n 1 (exponent - 2)).1
  { low := scale (4 * significand - below)
    value := scale (4 * significand)
    high := scale (4 * significand + 2)
    denominator := (scaleBinary 1 1 (exponent - 2)).2
    closed := significand % 2 = 0 }

/-- Whether the fraction `n / d` lies in the interval. -/
def Interval.holds (i : Interval) (n d : Nat) : Bool :=
  let below := i.low * d
  let here := n * i.denominator
  let above := i.high * d
  if i.closed then below ≤ here && here ≤ above else below < here && here < above

/-- The exponent of the leading decimal digit of the positive fraction `num / den`. -/
def leadingExponent (num den : Nat) : Int :=
  let guess : Int := ((num.log2 : Int) - den.log2) * 30103 / 100000
  let reaches := fun k : Int =>
    let (n, d) := scaleDecimal num den (-k)
    decide (d ≤ n)
  if reaches (guess + 1) then guess + 1 else if reaches guess then guess else guess - 1

/-- The multiple of `10 ^ exponent` that lies in the interval and is nearest to its value, a tie
going to the even multiple. -/
def Interval.onGrid? (i : Interval) (exponent : Int) : Option Numeral :=
  let (n, d) := scaleDecimal i.value i.denominator (-exponent)
  let fits := fun m : Nat =>
    let (a, b) := scaleDecimal m 1 exponent
    i.holds a b
  let near := roundDiv n d
  let far := if near = n / d then near + 1 else n / d
  if fits near then some ⟨near, exponent⟩
  else if fits far then some ⟨far, exponent⟩
  else none

/-- Seventeen digits tell any two doubles apart. -/
def maxDigits : Nat := 17

/-- The first grid with a point in the interval, from one digit on. -/
def Interval.shortest (i : Interval) : Numeral :=
  let lead := leadingExponent i.value i.denominator
  let grids := (List.range maxDigits).map fun k : Nat => lead - (k : Int)
  (grids.findSome? i.onGrid?).getD ⟨0, 0⟩

/-- The shortest decimal for the double `significand * 2 ^ exponent`. -/
def shortest (significand : Nat) (exponent : Int) : Numeral :=
  if significand = 0 then ⟨0, 0⟩ else (Interval.around significand exponent).shortest

end ClusterBalance.Decimal
