/-
SQL values, their literals in listings and their JSON encoding.

A text literal is put between single quotes, each quote inside written twice. Reals are written without an exponent.
In JSON a value that is not a finite number is `null`, and a blob is its bytes in hex, two lower case digits each.
-/
import LaunchReports.Json.Value

namespace LaunchReports

inductive Value where
  | null
  | integer (n : Int64)
  | real (x : Binary64)
  | text (s : String)
  | blob (bytes : List UInt8)
deriving DecidableEq, Repr

namespace Value

/-! ## Literals -/

/-- reals in listings -/
def realStyle : RealStyle := ⟨.up, none, []⟩

def doubleQuotes (text : List Char) : List Char :=
  text.flatMap fun c => if c = '\'' then ['\'', '\''] else [c]

def quotedText (text : List Char) : List Char := '\'' :: (doubleQuotes text ++ ['\''])

def literalChars : Value → List Char
  | null => ['N', 'U', 'L', 'L']
  | integer n => Numeral.ofInt n.toInt
  | real x => x.text realStyle
  | text s => quotedText s.toList
  | blob bytes => "<blob ".toList ++ Numeral.ofNat bytes.length ++ " bytes>".toList

/-- how listings show the value -/
def literal (v : Value) : String := String.ofList v.literalChars

/-! ## JSON -/

def hexOfByte (b : UInt8) : List Char := [Json.hexDigit (b.toNat / 16), Json.hexDigit b.toNat]

def toJson : Value → Json
  | null => .null
  | integer n => .integer n.toInt
  | real x => .real x
  | text s => .string s
  | blob bytes => .string (String.ofList (bytes.flatMap hexOfByte))

end Value

end LaunchReports
