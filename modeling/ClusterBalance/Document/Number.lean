import ClusterBalance.Decimal.Reader
import ClusterBalance.Document

/-! The floats that documents stand for: strictly, where a field has to hold a number, and
liberally, where a value is converted. -/

namespace ClusterBalance.Document

/-- What a value is as a float where a number is required. -/
inductive NumberReading where
  | number (x : Float)
  | tooLarge
  | notNumeric

/-- Reads a whole number or a float. -/
def number : Document → NumberReading
  | int n =>
    match Decimal.ofWhole? n with
    | some x => .number x
    | none => .tooLarge
  | float x => .number x
  | _ => .notNumeric

/-- What a value converts to. -/
inductive Conversion where
  | float (x : Float)
  | tooLarge
  | unreadable (text : LooseText)
  | noNumber (kind : String)

/-- Converts numbers, truth values and texts to floats. -/
def convert : Document → Conversion
  | bool b => .float (if b then 1.0 else 0.0)
  | int n =>
    match Decimal.ofWhole? n with
    | some x => .float x
    | none => .tooLarge
  | float x => .float x
  | string s =>
    match s.sound?.bind Decimal.read? with
    | some x => .float x
    | none => .unreadable s
  | other => .noNumber other.kindName

end ClusterBalance.Document
