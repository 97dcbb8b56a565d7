import ClusterBalance.Decimal.Reader
import ClusterBalance.Document.Moment

/-! Reading dates and times from TOML text. A date that the calendar does not have is refused. -/

namespace ClusterBalance.Document.Toml

open Decimal (digitsValue spanDigits)

/-- A number in exactly `width` digits, and the rest. -/
def fixedDigits? (width : Nat) (cs : List Char) : Option (Nat × List Char) :=
  let digits := cs.take width
  if digits.length = width ∧ digits.all Char.isDigit then
    some (digitsValue digits, cs.drop width)
  else none

/-- What follows a character that has to be there. -/
def behind? (mark : Char) : List Char → Option (List Char)
  | c :: rest => if c = mark then some rest else none
  | [] => none

/-- Microseconds behind a point, if there are any. Further digits are dropped. -/
def spanMicro (cs : List Char) : Nat × List Char :=
  match cs with
  | '.' :: rest =>
    let (digits, after) := spanDigits rest
    if digits.isEmpty then (0, cs)
    else
      let kept := digits.take 6
      (digitsValue (kept ++ List.replicate (6 - kept.length) '0'), after)
  | _ => (0, cs)

/-- Two numbers of two digits with a colon between them. -/
def clock? (cs : List Char) : Option ((Nat × Nat) × List Char) := do
  let (first, rest) ← fixedDigits? 2 cs
  let (second, rest) ← fixedDigits? 2 (← behind? ':' rest)
  return ((first, second), rest)

/-- A time of day, and the rest. -/
def time? (cs : List Char) : Option (TimeOfDay × List Char) := do
  let ((hour, minute), rest) ← clock? cs
  let (second, rest) ← fixedDigits? 2 (← behind? ':' rest)
  let (micro, rest) := spanMicro rest
  let time : TimeOfDay := { hour, minute, second, micro }
  if time.isValid then some (time, rest) else none

/-- A date, and the rest. -/
def date? (cs : List Char) : Option (Date × List Char) := do
  let (year, rest) ← fixedDigits? 4 cs
  let (month, rest) ← fixedDigits? 2 (← behind? '-' rest)
  let (day, rest) ← fixedDigits? 2 (← behind? '-' rest)
  let date : Date := { year, month, day }
  if date.isValid then some (date, rest) else none

/-- An offset of hours and minutes behind its sign. -/
def signedOffset? (negative : Bool) (cs : List Char) : Option (Int × List Char) := do
  let ((hours, minutes), rest) ← clock? cs
  let offset : Int := 60 * hours + minutes
  if hours < 24 ∧ minutes < 60 then some (if negative then -offset else offset, rest) else none

/-- An offset behind a time, if there is one. -/
def spanOffset (cs : List Char) : Option Int × List Char :=
  let found :=
    match cs with
    | 'Z' :: rest | 'z' :: rest => some (0, rest)
    | '+' :: rest => signedOffset? false rest
    | '-' :: rest => signedOffset? true rest
    | _ => none
  match found with
  | some (offset, rest) => (some offset, rest)
  | none => (none, cs)

/-- The time behind a date, if there is one. -/
def timePart? : List Char → Option (TimeOfDay × List Char)
  | 'T' :: rest | 't' :: rest | ' ' :: rest => time? rest
  | _ => none

/-- A date with or without a time, or a time, and the rest. -/
def moment? (cs : List Char) : Option (Moment × List Char) :=
  match date? cs with
  | some (date, afterDate) =>
    match timePart? afterDate with
    | some (time, afterTime) =>
      let (offset, rest) := spanOffset afterTime
      some (.dateTime date time offset, rest)
    | none => some (.date date, afterDate)
  | none => (time? cs).map fun (time, rest) => (.time time, rest)

end ClusterBalance.Document.Toml
