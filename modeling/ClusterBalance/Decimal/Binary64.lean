/-! Double precision numbers as exact values: the significand and exponent of a finite double, the
quotient of two natural numbers rounded to a whole number, and the double nearest to a quotient. A
tie goes to the even neighbour in both roundings. -/

namespace ClusterBalance.Decimal

/-- What the bits of a double stand for; a finite one is `significand * 2 ^ exponent`, with its
sign. -/
inductive Reading where
  | nan
  | infinite (negative : Bool)
  | finite (negative : Bool) (significand : Nat) (exponent : Int)
  deriving DecidableEq, Repr

/-- The significand of a normal double has one bit more than its fraction field of 52 bits. -/
def hiddenBit : Nat := 0x10000000000000

/-- The exponents that the exponent field of 11 bits tells apart. -/
def numFields : Nat := 2048

/-- The sign is the bit above the other 63. -/
def signBit : Nat := 0x8000000000000000

/-- The exponent of the least positive double. -/
def leastExponent : Int := -1074

/-- The fields of a double, read as a value. -/
def Reading.ofFloat (x : Float) : Reading :=
  let word := x.toBits.toNat
  let negative := word / signBit == 1
  let field := word / hiddenBit % numFields
  let fraction := word % hiddenBit
  if field = numFields - 1 then
    if fraction = 0 then .infinite negative else .nan
  else if field = 0 then
    .finite negative fraction leastExponent
  else
    .finite negative (fraction + hiddenBit) (leastExponent + (field - 1 : Nat))

/-- The quotient rounded to the nearest whole number, a tie to the even one. -/
def roundDiv (num den : Nat) : Nat :=
  let quotient := num / den
  let rest := num % den
  if 2 * rest > den ∨ (2 * rest = den ∧ quotient % 2 = 1) then quotient + 1 else quotient

/-- A rounded quotient is off by half a unit at most. -/
theorem roundDiv_bounds (num : Nat) {den : Nat} (h : 0 < den) :
    2 * num ≤ 2 * (roundDiv num den * den) + den ∧
      2 * (roundDiv num den * den) ≤ 2 * num + den := by
  have e := Nat.div_add_mod num den
  have l := Nat.mod_lt num h
  simp only [roundDiv]
  split
  · rw [Nat.add_mul, Nat.mul_comm (num / den)]
    omega
  · rw [Nat.mul_comm (num / den)]
    omega

/-- `num / den * 2 ^ shift` as a fraction of natural numbers. -/
def scaleBinary (num den : Nat) (shift : Int) : Nat × Nat :=
  (num <<< shift.toNat, den <<< (-shift).toNat)

/-- `num / den * 10 ^ shift` as a fraction of natural numbers. -/
def scaleDecimal (num den : Nat) (shift : Int) : Nat × Nat :=
  (num * Nat.pow 10 shift.toNat, den * Nat.pow 10 (-shift).toNat)

/-- The exponent at which `num / den` has a significand of 53 bits, or the least exponent where
that would lie below it. -/
def unitExponent (num den : Nat) : Int :=
  let guess : Int := (num.log2 : Int) - den.log2 - 53
  let (n, d) := scaleBinary num den (-guess)
  max leastExponent (if n < d * (2 * hiddenBit) then guess else guess + 1)

/-- A double from its sign and the bits below it. -/
def ofMagnitude (negative : Bool) (magnitude : Nat) : Float :=
  Float.ofBits (UInt64.ofNat (magnitude + if negative then signBit else 0))

/-- The bits of positive infinity. -/
def infinityBits : Nat := (numFields - 1) * hiddenBit

/-- The double nearest to `num / den`, with the given sign; infinite when no finite double is
near. The bits count the doubles in order, so a carry out of the significand lands in the
exponent. -/
def nearest (negative : Bool) (num den : Nat) : Float :=
  if num = 0 then ofMagnitude negative 0
  else
    let unit := unitExponent num den
    let (n, d) := scaleBinary num den (-unit)
    let bits := (unit - leastExponent).toNat * hiddenBit + roundDiv n d
    ofMagnitude negative (min bits infinityBits)

/-- The double nearest to a quotient of whole numbers with a nonzero divisor. -/
def nearestRatio (num den : Int) : Float :=
  nearest (decide (num < 0) != decide (den < 0)) num.natAbs den.natAbs

/-- The double nearest to a whole number, if a finite one is near. -/
def ofWhole? (n : Int) : Option Float :=
  let x := nearestRatio n 1
  if x.isInf then none else some x

/-- The double nearest to `digits * 10 ^ exponent`, with the given sign. The bounds on the exponent
only keep the powers small: beyond them the answer is infinite or zero anyway. -/
def ofDecimal (negative : Bool) (digits : Nat) (exponent : Int) : Float :=
  if digits = 0 then ofMagnitude negative 0
  else if exponent > 400 then ofMagnitude negative infinityBits
  else if exponent < -400 - (digits.log2 : Int) then ofMagnitude negative 0
  else
    let (n, d) := scaleDecimal digits 1 exponent
    nearest negative n d

end ClusterBalance.Decimal
