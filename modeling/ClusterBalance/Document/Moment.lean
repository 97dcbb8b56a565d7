import ClusterBalance.Decimal.Layout

/-! Dates and times, as documents may hold them, and their texts. -/

namespace ClusterBalance

/-- A date in the calendar. -/
structure Date where
  year : Nat
  month : Nat
  day : Nat
  deriving DecidableEq, Repr

namespace Date

/-- Whether a year has a leap day. -/
def isLeap (year : Nat) : Bool := year % 4 = 0 && (year % 100 != 0 || year % 400 = 0)

/-- The number of days in a month. -/
def daysInMonth (year month : Nat) : Nat :=
  if month = 2 then (if isLeap year then 29 else 28)
  else if month = 4 ∨ month = 6 ∨ month = 9 ∨ month = 11 then 30
  else 31

/-- Whether the calendar has the date. It starts with the year one. -/
def isValid (d : Date) : Bool :=
  1 ≤ d.year && 1 ≤ d.month && d.month ≤ 12 && 1 ≤ d.day && d.day ≤ daysInMonth d.year d.month

end Date

/-- A time of a day, up to microseconds. -/
structure TimeOfDay where
  hour : Nat
  minute : Nat
  second : Nat
  micro : Nat
  deriving DecidableEq, Repr

/-- Whether a day has the time. -/
def TimeOfDay.isValid (t : TimeOfDay) : Bool := t.hour < 24 && t.minute < 60 && t.second < 60

/-- A date, a time of day, or both. A date with a time may have an offset, in minutes, from the
universal time. -/
inductive Moment where
  | date (date : Date)
  | time (time : TimeOfDay)
  | dateTime (date : Date) (time : TimeOfDay) (offset : Option Int)
  deriving DecidableEq, Repr

namespace Moment

/-- A number in at least `width` digits. -/
def padded (width n : Nat) : String :=
  String.ofList (Decimal.padLeft width '0' (Decimal.digitChars n))

/-- The text of a date. -/
def dateText (d : Date) : String :=
  padded 4 d.year ++ "-" ++ padded 2 d.month ++ "-" ++ padded 2 d.day

/-- The text of a time, with its microseconds if there are any. -/
def timeText (t : TimeOfDay) : String :=
  padded 2 t.hour ++ ":" ++ padded 2 t.minute ++ ":" ++ padded 2 t.second ++
    if t.micro = 0 then "" else "." ++ padded 6 t.micro

/-- The text of an offset. -/
def offsetText (offset : Int) : String :=
  (if offset < 0 then "-" else "+") ++ padded 2 (offset.natAbs / 60) ++ ":" ++
    padded 2 (offset.natAbs % 60)

/-- The text of a moment. -/
def text : Moment → String
  | date d => dateText d
  | time t => timeText t
  | dateTime d t offset =>
    dateText d ++ " " ++ timeText t ++ (offset.map offsetText).getD ""

/-- The word by which messages name the kind of a moment. -/
def kindName : Moment → String
  | date _ => "datetime.date"
  | time _ => "datetime.time"
  | dateTime .. => "datetime.datetime"

/-- The parts of a date. -/
def dateParts (d : Date) : List Nat := [d.year, d.month, d.day]

/-- The parts of a time. Its seconds and microseconds are left out as far as they are zero. -/
def timeParts (t : TimeOfDay) : List Nat :=
  [t.hour, t.minute] ++
    if t.micro ≠ 0 then [t.second, t.micro] else if t.second ≠ 0 then [t.second] else []

/-- The literal text of an offset, in full days and the seconds behind them. -/
def offsetLiteral (offset : Int) : String :=
  if offset = 0 then "datetime.timezone.utc"
  else
    let days := offset.fdiv 1440
    let seconds := 60 * offset.fmod 1440
    let parts :=
      (if days = 0 then [] else ["days=" ++ toString days]) ++
        if seconds = 0 then [] else ["seconds=" ++ toString seconds]
    "datetime.timezone(datetime.timedelta(" ++ ", ".intercalate parts ++ "))"

/-- The literal text of a moment: its kind and its parts. -/
def literal (m : Moment) : String :=
  let parts :=
    match m with
    | date d => (dateParts d).map toString
    | time t => (timeParts t).map toString
    | dateTime d t offset =>
      (dateParts d ++ timeParts t).map toString ++
        (offset.map fun minutes => "tzinfo=" ++ offsetLiteral minutes).toList
  m.kindName ++ "(" ++ ", ".intercalate parts ++ ")"

end Moment

end ClusterBalance
