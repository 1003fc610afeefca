/-
Moments to the second, and their texts.

`Moment.ofUnix` and `Moment.toUnix` convert from and to seconds since 1970. `Moment.stored` is the text that the session
table holds: a year of four digits, with a minus sign before the year 0, month, day, hour, minute and second.
`Moment.unixMillisText` is the text of a time in milliseconds, which is counted in nanoseconds on the way.
-/
import LaunchReports.Number.Numeral
import LaunchReports.Number.Power
import LaunchReports.Time.Calendar

namespace LaunchReports

/-- a date and time in UTC -/
structure Moment where
  date : Date
  hour : Nat
  minute : Nat
  second : Nat
deriving DecidableEq, Repr

namespace Moment

/-- the number of the first day of 1970 -/
def epochDay : Int := 719528

def ofUnix (seconds : Int) : Moment :=
  let clock := (seconds % 86400).toNat
  ⟨Date.ofDayNumber (seconds / 86400 + epochDay), clock / 3600, clock / 60 % 60, clock % 60⟩

def secondOfDay (m : Moment) : Nat := m.hour * 3600 + m.minute * 60 + m.second

def toUnix (m : Moment) : Int := (Calendar.dayNumber m.date - epochDay) * 86400 + m.secondOfDay

def isValid (m : Moment) : Bool := m.date.isValid && m.hour ≤ 23 && m.minute ≤ 59 && m.second ≤ 59

/-! ## Range -/

/-- the start of the year -9999 -/
def firstUnix : Int := -377705116800

/-- the end of the year 9999 -/
def lastUnix : Int := 253402300799

def inRange (seconds : Int) : Bool := firstUnix ≤ seconds && seconds ≤ lastUnix

/-! ## Texts -/

/-- four digits, with a minus sign before the year 0 -/
def yearText (year : Int) : List Char :=
  if year < 0 then '-' :: Numeral.padded 4 year.natAbs else Numeral.padded 4 year.natAbs

def dateText (d : Date) : List Char :=
  yearText d.year ++ '-' :: Numeral.padded 2 d.month ++ '-' :: Numeral.padded 2 d.day

def clockText (m : Moment) : List Char :=
  Numeral.padded 2 m.hour ++ ':' :: Numeral.padded 2 m.minute ++ ':' :: Numeral.padded 2 m.second

def stored (m : Moment) : List Char := dateText m.date ++ ' ' :: clockText m

/-! ## Milliseconds -/

def nanosPerMilli : Nat := 1000000

def nanosPerSecond : Nat := 1000000000

/-- nanoseconds are counted in signed 128-bit integers -/
def maxNanos : Nat := twoTo 127 - 1

/-- the nanoseconds of so many milliseconds, if they can be counted -/
def nanosOfMillis? (ms : Nat) : Option Nat :=
  let nanos := ms * nanosPerMilli
  if nanos ≤ maxNanos then some nanos else none

/-- the moment so many nanoseconds after the start of 1970, and its milliseconds -/
def ofUnixNanos? (nanos : Nat) : Option (Moment × Nat) :=
  let seconds := nanos / nanosPerSecond
  if inRange seconds then some (ofUnix seconds, nanos % nanosPerSecond / nanosPerMilli) else none

/-- date, time and milliseconds -/
def millisText (m : Moment) (millis : Nat) : List Char :=
  dateText m.date ++ 'T' :: clockText m ++ '.' :: Numeral.padded 3 millis ++ ['Z']

/-- milliseconds since 1970 as text; what lies beyond the year 9999 is written as its last millisecond -/
def unixMillisText (ms : Nat) : List Char :=
  let counted := ofUnixNanos? ((nanosOfMillis? ms).getD maxNanos)
  (counted.map fun c => millisText c.1 c.2).getD "9999-12-31T23:59:59.999Z".toList

end Moment

end LaunchReports
