/-!
# Instants

A point in time as whole seconds from the start of 1970 and billionths of a second. A leap
second is the second before it with a billion billionths or more. Dates follow the proleptic
calendar with years from -262143 to 262142.
-/
namespace RadioAdmin

structure Instant where
  seconds : Int
  nanos : Nat
  deriving DecidableEq, Repr

namespace Instant

/-- Whether an instant is later than another. -/
def after (a b : Instant) : Bool :=
  b.seconds < a.seconds || (a.seconds == b.seconds && b.nanos < a.nanos)

/-- A day of the calendar. -/
structure Date where
  year : Int
  month : Nat
  day : Nat
  deriving DecidableEq, Repr

def isLeapYear (year : Int) : Bool :=
  year % 4 == 0 && (year % 100 != 0 || year % 400 == 0)

/-- The number of days of a month from 1 to 12. -/
def daysInMonth (year : Int) (month : Nat) : Nat :=
  if month = 2 then if isLeapYear year then 29 else 28
  else if month = 4 ∨ month = 6 ∨ month = 9 ∨ month = 11 then 30
  else 31

def minYear : Int := -262143

def maxYear : Int := 262142

def Date.isValid (date : Date) : Bool :=
  minYear ≤ date.year && date.year ≤ maxYear && 1 ≤ date.month && date.month ≤ 12 &&
    1 ≤ date.day && date.day ≤ daysInMonth date.year date.month

/-- The days of the years before a year, counted from the year 0. -/
def daysBeforeYear (year : Int) : Int :=
  365 * year + (year + 3) / 4 - (year + 99) / 100 + (year + 399) / 400

/-- The days of the months before a month from 1 to 12. -/
def daysBeforeMonth (year : Int) : Nat → Nat
  | 0 => 0
  | month + 1 => if month = 0 then 0 else daysBeforeMonth year month + daysInMonth year month

/-- Days from the first of January 1970. -/
def Date.toDays (date : Date) : Int :=
  daysBeforeYear date.year - daysBeforeYear 1970 + daysBeforeMonth date.year date.month +
    (date.day - 1)

/-- The month and day of a day of a year, counted from 0. -/
def monthAndDay (year : Int) (day : Nat) : Nat × Nat :=
  ((List.range 11).map (· + 1)).foldl (fun (month, left) candidate =>
    if month = candidate ∧ daysInMonth year candidate < left then
      (candidate + 1, left - daysInMonth year candidate)
    else (month, left)) (1, day + 1)

/-- The date that lies a number of days from the first of January 1970. -/
def Date.ofDays (days : Int) : Date :=
  let sinceZero := days + daysBeforeYear 1970
  let guess := sinceZero * 400 / 146097
  let year := if sinceZero < daysBeforeYear guess then guess - 1
    else if daysBeforeYear (guess + 1) ≤ sinceZero then guess + 1
    else guess
  let (month, day) := monthAndDay year (sinceZero - daysBeforeYear year).toNat
  ⟨year, month, day⟩

def nanosPerSecond : Nat := 1000000000

def secondsPerDay : Int := 86400

/-- The first second of the least year. -/
def minSeconds : Int := (Date.toDays ⟨minYear, 1, 1⟩) * secondsPerDay

/-- The last second of the greatest year. -/
def maxSeconds : Int := (Date.toDays ⟨maxYear, 12, 31⟩) * secondsPerDay + 86399

def isInRange (instant : Instant) : Bool :=
  minSeconds ≤ instant.seconds && instant.seconds ≤ maxSeconds

/-- The longest span of time in seconds: as many as there are thousandths in a word. -/
def maxSpan : Nat := (UInt64.size / 2 - 1) / 1000

/-- The instant a number of seconds before another, none when the span or the result is
out of range. -/
def minusSeconds? (instant : Instant) (seconds : Nat) : Option Instant :=
  if seconds ≤ maxSpan then
    let earlier : Instant := ⟨instant.seconds - seconds, instant.nanos⟩
    if earlier.isInRange then some earlier else none
  else none

end Instant

end RadioAdmin
