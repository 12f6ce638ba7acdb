/-
# Dates and times

Moments as they appear among the values of a configuration file: a date, a time of day, or both,
with or without an offset from universal time.

* `Date.isValid`, `TimeOfDay.isValid` : the dates and times that exist;
* `Moment.literal` : how a moment is shown in a message.
-/
import SchemaDiagram.Number.Quantity

namespace SchemaDiagram

/-- A day of the calendar. -/
structure Date where
  year : Nat
  month : Nat
  day : Nat
deriving DecidableEq, Repr

/-- A time of day. -/
structure TimeOfDay where
  hour : Nat
  minute : Nat
  second : Nat
  microsecond : Nat
deriving DecidableEq, Repr

/-- A date, a time of day, or both.  An offset counts minutes ahead of universal time. -/
inductive Moment where
  | date (d : Date)
  | time (t : TimeOfDay)
  | dateTime (d : Date) (t : TimeOfDay) (offset : Option Int)
deriving DecidableEq, Repr

/-! ## Existence -/

/-- Whether a year has a leap day. -/
def isLeapYear (year : Nat) : Bool := year % 4 = 0 && (year % 100 != 0 || year % 400 = 0)

/-- How many days a month has. -/
def daysInMonth (year month : Nat) : Nat :=
  if month = 2 then (if isLeapYear year then 29 else 28)
  else if month = 4 || month = 6 || month = 9 || month = 11 then 30 else 31

/-- Whether a date exists, in the years 1 to 9999. -/
def Date.isValid (d : Date) : Bool :=
  1 ≤ d.year && d.year ≤ 9999 && 1 ≤ d.month && d.month ≤ 12 && 1 ≤ d.day &&
    d.day ≤ daysInMonth d.year d.month

/-- Whether a time of day exists; there are no leap seconds. -/
def TimeOfDay.isValid (t : TimeOfDay) : Bool :=
  t.hour < 24 && t.minute < 60 && t.second < 60 && t.microsecond < 1000000

/-! ## Literals -/

/-- Numbers with commas between them. -/
def commaSeparated (ns : List Nat) : String :=
  String.intercalate ", " (ns.map fun (n : Nat) => wholeText n)

/-- The parts of a date. -/
def Date.parts (d : Date) : List Nat := [d.year, d.month, d.day]

/-- The parts of a time of day that have to be shown: seconds and microseconds are left out
from the end as long as they are zero. -/
def TimeOfDay.parts (t : TimeOfDay) : List Nat :=
  [t.hour, t.minute] ++
    if t.microsecond != 0 then [t.second, t.microsecond]
    else if t.second != 0 then [t.second] else []

/-- The literal of an offset.  A negative one is a negative day and a positive rest. -/
def offsetLiteral (minutes : Int) : String :=
  if minutes = 0 then "datetime.timezone.utc"
  else
    let span :=
      if minutes < 0 then "days=-1, seconds=" ++ wholeText (86400 + 60 * minutes)
      else "seconds=" ++ wholeText (60 * minutes)
    "datetime.timezone(datetime.timedelta(" ++ span ++ "))"

/-- The literal of a moment. -/
def Moment.literal : Moment → String
  | .date d => "datetime.date(" ++ commaSeparated d.parts ++ ")"
  | .time t => "datetime.time(" ++ commaSeparated t.parts ++ ")"
  | .dateTime d t offset =>
    let zone := match offset with
      | some minutes => ", tzinfo=" ++ offsetLiteral minutes
      | none => ""
    "datetime.datetime(" ++ commaSeparated (d.parts ++ t.parts) ++ zone ++ ")"

end SchemaDiagram
