/-
The proleptic Gregorian calendar, with a year zero and years before it.

Days are numbered from the first day of the year 0. `dayNumber` counts the days before a date and `Date.ofDayNumber` is
the date of a day; `isoWeek` is the week of a day, counted in the year that holds its Thursday.
-/
namespace LaunchReports

structure Date where
  year : Int
  month : Nat
  day : Nat
deriving DecidableEq, Repr

namespace Calendar

def isLeap (year : Int) : Bool := year % 4 == 0 && (year % 100 != 0 || year % 400 == 0)

def monthLengths (leap : Bool) : List Nat := [31, if leap then 29 else 28, 31, 30, 31, 30, 31, 31, 30, 31, 30, 31]

/-- the days of a month that is numbered from one -/
def monthLength (year : Int) (month : Nat) : Nat :=
  match month with
  | 0 => 0
  | m + 1 => (monthLengths (isLeap year)).getD m 0

/-- the days before a year: 365 each, and one more for each leap year -/
def daysBeforeYear (year : Int) : Int := 365 * year + (year + 3) / 4 - (year + 99) / 100 + (year + 399) / 400

/-- the days of a year before a month -/
def daysBeforeMonth (leap : Bool) (month : Nat) : Nat :=
  ((monthLengths leap).take (month - 1)).foldl (fun n length => n + length) 0

def dayNumber (d : Date) : Int := daysBeforeYear d.year + daysBeforeMonth (isLeap d.year) d.month + d.day - 1

/-- the year of a day: the mean length of a year gives it up to one -/
def yearOfDay (n : Int) : Int :=
  let guess := n * 400 / 146097
  if daysBeforeYear (guess + 1) ≤ n then guess + 1
  else if n < daysBeforeYear guess then guess - 1
  else guess

/-- month and day of a day that is numbered within its year from zero; `month` is the first month left -/
def monthAndDay (month : Nat) : List Nat → Nat → Nat × Nat
  | [], n => (month, n + 1)
  | length :: rest, n => if n < length then (month, n + 1) else monthAndDay (month + 1) rest (n - length)

end Calendar

namespace Date

def ofDayNumber (n : Int) : Date :=
  let year := Calendar.yearOfDay n
  let (month, day) :=
    Calendar.monthAndDay 1 (Calendar.monthLengths (Calendar.isLeap year)) (n - Calendar.daysBeforeYear year).toNat
  ⟨year, month, day⟩

def isValid (d : Date) : Bool :=
  1 ≤ d.month && d.month ≤ 12 && 1 ≤ d.day && d.day ≤ Calendar.monthLength d.year d.month

/-- the last day of its month -/
def endsMonth (d : Date) : Bool := d.day == Calendar.monthLength d.year d.month

end Date

/-- days after the last Monday; day 0 is a Saturday -/
def Calendar.daysAfterMonday (n : Int) : Nat := ((n + 5) % 7).toNat

/-- a week of the year that holds its Thursday -/
structure IsoWeek where
  year : Int
  week : Nat
deriving DecidableEq, Repr

def Calendar.isoWeek (n : Int) : IsoWeek :=
  let thursday := n - Calendar.daysAfterMonday n + 3
  let year := Calendar.yearOfDay thursday
  ⟨year, ((thursday - Calendar.daysBeforeYear year) / 7).toNat + 1⟩

end LaunchReports
