/-
Timestamps of session records, brought into the stored form.

A timestamp is a number of seconds since 1970, a date and time with an offset from UTC, or the stored form itself, which
is read as UTC. White space around it is ignored. Of the second form the fraction of a second is dropped, and a leap
second is taken as the second before it.
-/
import LaunchReports.Number.Power
import LaunchReports.Text.Blank
import LaunchReports.Time.Moment

namespace LaunchReports

inductive TimestampError where
  | empty
  | epochOutOfRange
  | unsupported (text : String)
  /-- a time with an offset that falls into the year 10000 in UTC; the program does not survive it -/
  | beyondCalendar
deriving DecidableEq, Repr

def TimestampError.message : TimestampError → String
  | empty => "timestamp input is empty"
  | epochOutOfRange => "epoch seconds out of range: timestamp was not in range"
  | unsupported text => "unsupported timestamp format: " ++ text
  | beyondCalendar => "local datetime out of valid range"

namespace Timestamp

/-! ## Pieces -/

/-- exactly `n` digits, and what follows -/
def digits (n : Nat) (text : List Char) : Option (Nat × List Char) :=
  let head := text.take n
  if head.length = n && head.all Char.isDigit then some (Numeral.toNat head, text.drop n) else none

/-- what follows the character -/
def skip (c : Char) : List Char → Option (List Char)
  | d :: rest => if d = c then some rest else none
  | [] => none

/-- month and day after a year -/
def monthDay (year : Int) (text : List Char) : Option (Date × List Char) := do
  let (month, rest) ← digits 2 (← skip '-' text)
  let (day, rest) ← digits 2 (← skip '-' rest)
  return (⟨year, month, day⟩, rest)

def clock (date : Date) (text : List Char) : Option (Moment × List Char) := do
  let (hour, rest) ← digits 2 text
  let (minute, rest) ← digits 2 (← skip ':' rest)
  let (second, rest) ← digits 2 (← skip ':' rest)
  return (⟨date, hour, minute, second⟩, rest)

/-- a point needs a digit after it -/
def skipFraction : List Char → Option (List Char)
  | '.' :: d :: rest => if d.isDigit then some (rest.dropWhile Char.isDigit) else none
  | '.' :: [] => none
  | text => some text

/-- hours and minutes as seconds -/
def offsetSize (text : List Char) : Option Nat := do
  let (hours, rest) ← digits 2 text
  let (minutes, rest) ← digits 2 (← skip ':' rest)
  if rest.isEmpty && hours ≤ 23 && minutes ≤ 59 then some (hours * 3600 + minutes * 60) else none

/-- the whole offset in seconds, `Z` for none -/
def offset : List Char → Option Int
  | ['Z'] | ['z'] => some 0
  | '+' :: rest => (offsetSize rest).map fun (n : Nat) => (n : Int)
  | '-' :: rest => (offsetSize rest).map fun (n : Nat) => -(n : Int)
  | _ => none

/-! ## Forms -/

/-- the second before, for a leap second -/
def beforeLeap (m : Moment) : Moment := if m.second = 60 then { m with second := 59 } else m

/-- leap seconds end a month -/
def isLeapPlace (m : Moment) : Bool := m.hour == 23 && m.minute == 59 && m.second == 59 && m.date.endsMonth

/-- the seconds since 1970 of a date and time with an offset; one ASCII character separates date and time -/
def offsetForm? (text : List Char) : Option Int := do
  let (year, rest) ← digits 4 text
  let (date, rest) ← monthDay year rest
  let rest ← match rest with
    | c :: rest => if c.toNat < 0x80 then some rest else none
    | [] => none
  let (time, rest) ← clock date rest
  let shift ← offset (← skipFraction rest)
  let civil := beforeLeap time
  if civil.isValid then
    let seconds := civil.toUnix - shift
    if time.second = 60 && !(isLeapPlace (Moment.ofUnix seconds) && Moment.inRange seconds) then none
    else some seconds
  else none

/-- a sign and four digits, the sign optional -/
def signedYear : List Char → Option (Int × List Char)
  | '+' :: rest => (digits 4 rest).map fun (n, after) => ((n : Int), after)
  | '-' :: rest => (digits 4 rest).map fun (n, after) => (-(n : Int), after)
  | text => (digits 4 text).map fun (n, after) => ((n : Int), after)

/-- the moment of a stored form -/
def storedForm? (text : List Char) : Option Moment := do
  let (year, rest) ← signedYear text
  let (date, rest) ← monthDay year rest
  let (time, rest) ← clock date (← skip ' ' rest)
  if rest.isEmpty && time.isValid then some time else none

/-- the moment that a timestamp denotes -/
def moment (raw : List Char) : Except TimestampError Moment :=
  let text := Text.trim raw
  if text.isEmpty then .error .empty
  else
    match (Numeral.int? text).filter fitsInt64 with
    | some seconds => if Moment.inRange seconds then .ok (Moment.ofUnix seconds) else .error .epochOutOfRange
    | none =>
      match offsetForm? text with
      | some seconds => if seconds ≤ Moment.lastUnix then .ok (Moment.ofUnix seconds) else .error .beyondCalendar
      | none =>
        match storedForm? text with
        | some m => .ok m
        | none => .error (.unsupported (String.ofList text))

/-- the stored form of a timestamp -/
def normalize (raw : String) : Except TimestampError String :=
  (moment raw.toList).map fun m => String.ofList m.stored

end Timestamp

end LaunchReports
