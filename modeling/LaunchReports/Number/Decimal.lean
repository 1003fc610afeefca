/-
Decimal literals: an optional sign, digits with at most one point and at least one digit in all, and an optional
exponent. `Literal.read?` accepts exactly these.

A literal has an exact value, `Literal.value`. Where the significand has limited room, `Literal.curtailed` takes in the
digits from the left for as long as there is room; the rest of the whole part then counts as zeros and the rest of the
fraction not at all.
-/
import LaunchReports.Number.Numeral

namespace LaunchReports

/-- the number `± digits · 10 ^ exponent` -/
structure Decimal where
  negative : Bool
  digits : Nat
  exponent : Int
deriving DecidableEq, Repr

namespace Decimal

/-- the sign in front, and what follows it -/
def splitSign : List Char → Bool × List Char
  | '-' :: rest => (true, rest)
  | '+' :: rest => (false, rest)
  | text => (false, text)

/-- the exponent part: nothing at all, or `e`, an optional sign and at least one digit -/
def exponent? : List Char → Option Int
  | [] => some 0
  | mark :: rest => if mark = 'e' ∨ mark = 'E' then Numeral.int? rest else none

/-- the digits after the point, and what follows them; without a point there are none -/
def splitFraction : List Char → List Char × List Char
  | '.' :: rest => (rest.takeWhile Char.isDigit, rest.dropWhile Char.isDigit)
  | text => ([], text)

end Decimal

/-- the parts of a literal: the digits before and after the point, and the exponent -/
structure Literal where
  negative : Bool
  whole : List Char
  fraction : List Char
  exponent : Int
deriving DecidableEq, Repr

namespace Literal

def read? (text : List Char) : Option Literal :=
  let (negative, body) := Decimal.splitSign text
  let whole := body.takeWhile Char.isDigit
  let (fraction, tail) := Decimal.splitFraction (body.dropWhile Char.isDigit)
  if whole.isEmpty && fraction.isEmpty then none
  else (Decimal.exponent? tail).map fun e => ⟨negative, whole, fraction, e⟩

def digits (l : Literal) : List Char := l.whole ++ l.fraction

def value (l : Literal) : Decimal := ⟨l.negative, Numeral.toNat l.digits, l.exponent - l.fraction.length⟩

/-- a digit is taken in while the number of those before it is below `room`; the second part counts them -/
def takeIn (room : Nat) (taken : Nat × Nat) (c : Char) : Nat × Nat :=
  if taken.1 < room then (10 * taken.1 + (c.toNat - '0'.toNat), taken.2 + 1) else taken

def curtailed (room : Nat) (l : Literal) : Decimal :=
  let (digits, count) := l.digits.foldl (takeIn room) (0, 0)
  ⟨l.negative, digits, l.exponent + l.whole.length - count⟩

end Literal

/-- the exact value of a literal -/
def Decimal.read? (text : List Char) : Option Decimal := (Literal.read? text).map Literal.value

end LaunchReports
