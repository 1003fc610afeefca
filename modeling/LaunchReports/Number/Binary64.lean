/-
Double precision reals as their 64 bits, with exact arithmetic on natural numbers around them.

- `Binary64.form` takes the bits apart: not a number, an infinity, or `± significand · 2 ^ exponent`;
- `Binary64.ofRatio` is the real nearest to a quotient of natural numbers, ties to the even significand, and an
  infinity from 2 ^ 1024 - 2 ^ 970 on; `Binary64.ofDecimal` applies it to a decimal literal;
- `Binary64.compare` and `Binary64.compareInt` order reals among themselves and against integers by exact value.

No machine arithmetic is used, so every statement about these functions is one about natural numbers.
-/
import LaunchReports.Number.Decimal
import LaunchReports.Number.Power

namespace LaunchReports

/-- a double precision real, by its bits -/
structure Binary64 where
  bits : UInt64
deriving DecidableEq, Repr

namespace Binary64

inductive Form where
  | nan
  | infinite (negative : Bool)
  /-- the number `± significand · 2 ^ exponent` -/
  | finite (negative : Bool) (significand : Nat) (exponent : Int)
deriving DecidableEq, Repr

def form (x : Binary64) : Form :=
  let word := x.bits.toNat
  let negative : Bool := twoTo 63 ≤ word
  let field : Nat := word / twoTo 52 % twoTo 11
  let fraction : Nat := word % twoTo 52
  if field = twoTo 11 - 1 then if fraction = 0 then .infinite negative else .nan
  else if field = 0 then .finite negative fraction (-1074)
  else .finite negative (twoTo 52 + fraction) ((field : Int) - 1075)

def isFinite (x : Binary64) : Bool :=
  match x.form with
  | .finite .. => true
  | _ => false

def nan : Binary64 := ⟨0x7ff8000000000000⟩

def infinity (negative : Bool) : Binary64 :=
  ⟨if negative then 0xfff0000000000000 else 0x7ff0000000000000⟩

/-! ## Rounding -/

/-- the natural number nearest to `num / den`, a half to the even neighbour -/
def roundHalfEven (num den : Nat) : Nat :=
  let below := num / den
  let twice := 2 * (num % den)
  if den < twice ∨ (den = twice ∧ below % 2 = 1) then below + 1 else below

/-- `num / den` divided by `2 ^ q`, again as a quotient -/
def scaled (num den : Nat) (q : Int) : Nat × Nat :=
  if q ≤ 0 then (num * twoTo q.natAbs, den) else (num, den * twoTo q.natAbs)

/-- the exponent at which `num / den` has a significand of 53 bits, or the smallest exponent there is -/
def unitExponent (num den : Nat) : Int :=
  let q := max ((num.log2 : Int) - den.log2 - 53) (-1074)
  let (n, d) := scaled num den q
  if twoTo 53 * d ≤ n then q + 1 else q

/-- the bits of the real nearest to `num / den` before the sign is set; a carry out of the significand runs into the
exponent field, which is the next larger real -/
def magnitude (num den : Nat) : Nat :=
  if num = 0 then 0
  else
    let q := unitExponent num den
    let (n, d) := scaled num den q
    (q + 1074).toNat * twoTo 52 + roundHalfEven n d

def infinityBits : Nat := 0x7ff0000000000000

def ofMagnitude (negative : Bool) (magnitude : Nat) : Binary64 :=
  ⟨UInt64.ofNat (min magnitude infinityBits + if negative then twoTo 63 else 0)⟩

def ofRatio (negative : Bool) (num den : Nat) : Binary64 := ofMagnitude negative (magnitude num den)

/-- the real nearest to a decimal literal; exponents far outside the range are decided without computing powers -/
def ofDecimal (d : Decimal) : Binary64 :=
  let places : Int := d.exponent + (Numeral.ofNat d.digits).length
  if d.digits = 0 ∨ places < -400 then ofMagnitude d.negative 0
  else if 400 < places then infinity d.negative
  else if 0 ≤ d.exponent then ofRatio d.negative (d.digits * tenTo d.exponent.natAbs) 1
  else ofRatio d.negative d.digits (tenTo d.exponent.natAbs)

/-! ## Exact order -/

/-- `± significand · 2 ^ exponent` times `2 ^ 1074`, an integer for every finite real -/
def scaledValue (negative : Bool) (significand : Nat) (exponent : Int) : Int :=
  let size : Int := (significand * twoTo (exponent + 1074).toNat : Nat)
  if negative then -size else size

/-- the order of two reals; a value that is not a number comes first -/
def compare (x y : Binary64) : Ordering :=
  match x.form, y.form with
  | .nan, .nan => .eq
  | .nan, _ => .lt
  | _, .nan => .gt
  | .infinite s, .infinite t => Ord.compare (!s) (!t)
  | .infinite s, _ => if s then .lt else .gt
  | _, .infinite t => if t then .gt else .lt
  | .finite s m q, .finite t n r => Ord.compare (scaledValue s m q) (scaledValue t n r)

/-- the order of an integer and a real, by exact value -/
def compareInt (n : Int) (y : Binary64) : Ordering :=
  match y.form with
  | .nan => .gt
  | .infinite t => if t then .gt else .lt
  | .finite t m q => Ord.compare (n * twoTo 1074) (scaledValue t m q)

end Binary64

end LaunchReports
