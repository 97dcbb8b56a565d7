import ClusterBalance.Document.Comparison
import ClusterBalance.Statistics.Band

/-! Bands whose bounds are any values, and whether any value lies in one. -/

namespace ClusterBalance

/-- Why it cannot be said whether a value lies in a band. -/
inductive BandError where
  | arithmetic (cause : ArithmeticError)
  | misuse (cause : Misuse)
  deriving DecidableEq, Repr

namespace BandError

/-- A comparison of a value with a bound. -/
def lift : Except Misuse Bool → Except BandError Bool
  | .ok b => .ok b
  | .error cause => .error (.misuse cause)

end BandError

namespace Band

/-- The double that nearness is judged on. -/
def double? (value : Document) : Except BandError Float :=
  match value.mixed? with
  | none => .error (.misuse (.notReal value.kindName))
  | some number =>
    match number.toFloat? with
    | some x => .ok x
    | none => .error (.arithmetic .wholeTooLarge)

/-- Whether a value is near a bound, as doubles. -/
def near? (value bound : Document) : Except BandError Bool := do
  return Scalar.near Scalar.tolerance (← double? value) (← double? bound)

/-- Whether a value is on the given side of a bound, or near it. Nearness is only asked for where
the exact comparison fails, so that whole numbers may be too large for a double elsewhere. -/
def onSide? (comparator : Comparator) (value bound : Document) : Except BandError Bool := do
  if ← BandError.lift (value.holds comparator bound) then return true else near? value bound

/-- Whether a value lies in a band. -/
def containsValue? (band : Band Document) (value : Document) : Except BandError Bool := do
  let aboveLower ← onSide? .atLeast value band.lower
  let belowUpper ← onSide? .atMost value band.upper
  return aboveLower && belowUpper

end Band

end ClusterBalance
