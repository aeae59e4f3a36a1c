import OutlineServer.Text.Basic

/-!
# Timestamps

An instant is a number of microseconds from the start of 1970 in UTC, earlier ones negative.  Its
timestamp shows the date of the Gregorian calendar and the time of day down to the millisecond that
has begun, in fixed width, so that timestamps of the years 1 to 9999 are ordered as texts the way
the milliseconds are ordered.

The calendar is counted from the first day of year 1 in cycles of 400 years, centuries, cycles of
four years and years; the last century and the last year of their cycles are the ones that may
have one day more.
-/
namespace OutlineServer

structure CalendarDate where
  year : Int
  month : Nat
  day : Nat
deriving DecidableEq

namespace CalendarDate

def isLeapYear (year : Int) : Bool := year % 4 = 0 && (year % 100 ≠ 0 || year % 400 = 0)

def monthLengths (leap : Bool) : List Nat :=
  [31, if leap then 29 else 28, 31, 30, 31, 30, 31, 31, 30, 31, 30, 31]

/-- The month and day of the `rest`-th day, counted from zero, of the months from `month` on. -/
def monthDay : (lengths : List Nat) → (month rest : Nat) → Nat × Nat
  | [], month, rest => (month, rest + 1)
  | length :: lengths, month, rest =>
    if rest < length then (month, rest + 1) else monthDay lengths (month + 1) (rest - length)

/-- The date of a day counted from the first day of year 1. -/
def ofDay (n : Int) : CalendarDate :=
  let inCycle := (n % 146097).toNat
  let century := min (inCycle / 36524) 3
  let inCentury := inCycle - 36524 * century
  let quad := inCentury / 1461
  let inQuad := inCentury % 1461
  let inYears := min (inQuad / 365) 3
  let year := 400 * (n / 146097) + (100 * century + 4 * quad + inYears + 1 : Nat)
  let (month, day) := monthDay (monthLengths (isLeapYear year)) 1 (inQuad - 365 * inYears)
  { year, month, day }

/-- The days from the first day of year 1 to the first day of 1970. -/
def epochDay : Int := 719162

def toText (d : CalendarDate) : Text :=
  Text.padded 4 d.year.toNat ++ ("-" : Text) ++ Text.padded 2 d.month ++ ("-" : Text)
    ++ Text.padded 2 d.day

end CalendarDate

def timeOfDayText (milliseconds : Nat) : Text :=
  Text.padded 2 (milliseconds / 3600000) ++ (":" : Text)
    ++ Text.padded 2 (milliseconds / 60000 % 60) ++ (":" : Text)
    ++ Text.padded 2 (milliseconds / 1000 % 60) ++ ("." : Text)
    ++ Text.padded 3 (milliseconds % 1000)

/-- The timestamp of an instant given in microseconds. -/
def timestamp (microseconds : Int) : Text :=
  let milliseconds := microseconds / 1000
  let date := CalendarDate.ofDay (CalendarDate.epochDay + milliseconds / 86400000)
  date.toText ++ ("T" : Text) ++ timeOfDayText (milliseconds % 86400000).toNat ++ ("Z" : Text)

/-- A clock that shows `now` and moves on by `step` each time it is read. -/
structure Clock where
  now : Int
  step : Int
deriving DecidableEq

namespace Clock

def read (c : Clock) : Int × Clock := (c.now, { c with now := c.now + c.step })

end Clock

end OutlineServer
