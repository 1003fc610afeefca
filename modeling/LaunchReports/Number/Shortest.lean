/-
The fewest decimal digits that read back as the same real, and their layout as text.

A decimal reads back as `m · 2 ^ q` when it lies in the interval of numbers that round to it: half a unit to each side,
a quarter below a power of two, the ends included when `m` is even. The grids of 1, 2, … 17 digits are tried in turn:
on each the two neighbours of the value are the only candidates worth testing, the first grid with a candidate inside
decides the number of digits, and of two candidates the nearer is taken.

`RealStyle` holds what a format decides beyond that: which way a tie between candidates goes, which magnitudes are
written without an exponent, and how a whole number ends.
-/
import LaunchReports.Number.Binary64

namespace LaunchReports

/-- the number `0.digits · 10 ^ point` -/
structure Scientific where
  digits : List Char
  point : Int
deriving DecidableEq, Repr

namespace Scientific

/-! ## Digits -/

/-- a positive real and the interval around it that rounds to it, as numerators over one denominator -/
structure Interval where
  low : Nat
  value : Nat
  high : Nat
  unit : Nat
  /-- the ends themselves round to the value -/
  closed : Bool
deriving DecidableEq, Repr

def Interval.ofBinary (m : Nat) (q : Int) : Interval :=
  let below := if m = twoTo 52 ∧ -1074 < q then 1 else 2
  let shift := twoTo (q - 2).natAbs
  if 2 ≤ q then ⟨(4 * m - below) * shift, 4 * m * shift, (4 * m + 2) * shift, 1, m % 2 = 0⟩
  else ⟨4 * m - below, 4 * m, 4 * m + 2, shift, m % 2 = 0⟩

/-- the same interval measured in steps of `10 ^ e` -/
def Interval.onGrid (i : Interval) (e : Int) : Interval :=
  let power := tenTo e.natAbs
  if 0 ≤ e then { i with unit := i.unit * power }
  else { i with low := i.low * power, value := i.value * power, high := i.high * power }

def Interval.contains (i : Interval) (step : Nat) : Bool :=
  if i.closed then i.low ≤ step * i.unit && step * i.unit ≤ i.high
  else i.low < step * i.unit && step * i.unit < i.high

/-- which of two candidates at equal distance is taken -/
inductive Tie where
  | up
  | even
deriving DecidableEq, Repr

/-- the candidate of a grid, if one of the value's two neighbours lies inside -/
def Interval.candidate? (i : Interval) (tie : Tie) : Option Nat :=
  let down := i.value / i.unit
  let twice := 2 * (i.value % i.unit)
  match i.contains down, i.contains (down + 1) with
  | false, false => none
  | true, false => some down
  | false, true => some (down + 1)
  | true, true =>
    if twice < i.unit then some down
    else if i.unit < twice then some (down + 1)
    else
      match tie with
      | .up => some (down + 1)
      | .even => if down % 2 = 0 then some down else some (down + 1)

/-- the `p` with `10 ^ (p - 1) ≤ m · 2 ^ q < 10 ^ p`, from an estimate of the decimal logarithm that is one short at
most -/
def decimalPoint (m : Nat) (q : Int) : Int :=
  let p := (((m.log2 : Int) + q) * 30103).fdiv 100000 + 1
  let v := (Interval.ofBinary m q).onGrid p
  if v.unit ≤ v.value then p + 1 else p

def ofSteps (steps : Nat) (e : Int) : Scientific :=
  let digits := Numeral.ofNat steps
  ⟨(digits.reverse.dropWhile (· = '0')).reverse, e + digits.length⟩

/-- the shortest digits of `m · 2 ^ q`, for a positive `m` below 2 ^ 53 -/
def shortest (tie : Tie) (m : Nat) (q : Int) : Scientific :=
  let i := Interval.ofBinary m q
  let p := decimalPoint m q
  let found := (List.range 17).findSome? fun n =>
    let e := p - (n + 1 : Nat)
    ((i.onGrid e).candidate? tie).map fun steps => ofSteps steps e
  found.getD (ofSteps ((i.onGrid (p - 17)).value / (i.onGrid (p - 17)).unit) (p - 17))

/-! ## Layout -/

/-- without an exponent; `whole` ends a number that has no fraction -/
def positional (s : Scientific) (whole : List Char) : List Char :=
  if s.point ≤ 0 then '0' :: '.' :: List.replicate s.point.natAbs '0' ++ s.digits
  else
    let p := s.point.toNat
    if s.digits.length ≤ p then s.digits ++ List.replicate (p - s.digits.length) '0' ++ whole
    else s.digits.take p ++ '.' :: s.digits.drop p

/-- one digit before the point, and an exponent that always has a sign -/
def exponential (s : Scientific) : List Char :=
  let e := s.point - 1
  let fraction := if s.digits.length ≤ 1 then [] else '.' :: s.digits.drop 1
  s.digits.take 1 ++ fraction ++ 'e' :: (if e < 0 then '-' else '+') :: Numeral.ofNat e.natAbs

end Scientific

/-- the decisions of one format for reals -/
structure RealStyle where
  tie : Scientific.Tie
  /-- the decimal points written without an exponent; all of them when absent -/
  positional : Option (Int × Int)
  /-- the end of a number without a fraction -/
  whole : List Char
deriving DecidableEq, Repr

def RealStyle.layout (style : RealStyle) (s : Scientific) : List Char :=
  match style.positional with
  | none => s.positional style.whole
  | some (least, most) =>
    if least ≤ s.point && s.point ≤ most then s.positional style.whole else s.exponential

/-- the text of a real; zero keeps its sign -/
def Binary64.text (x : Binary64) (style : RealStyle) : List Char :=
  match x.form with
  | .nan => ['N', 'a', 'N']
  | .infinite negative => if negative then ['-', 'i', 'n', 'f'] else ['i', 'n', 'f']
  | .finite negative m q =>
    let size := if m = 0 then '0' :: style.whole else style.layout (Scientific.shortest style.tie m q)
    if negative then '-' :: size else size

end LaunchReports
