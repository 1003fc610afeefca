/-
Texts as bytes.

Bytes from elsewhere need not be those of a text: `text?` finds the text that they are, `display` shows them with a
replacement for every stretch that is no character. Such a stretch is as long as a character could still begin with it,
and at least one byte.
-/
namespace LaunchReports

/-- the bytes of the text -/
def utf8 (text : String) : List UInt8 := text.toUTF8.data.toList

namespace Utf8

/-- a character of which not all bytes are read yet: the number so far, how many more bytes there are behind the next
one, and the least and the greatest that the next one can be -/
structure Pending where
  number : Nat
  behind : Nat
  least : UInt8
  greatest : UInt8
deriving DecidableEq, Repr

/-- what the first byte of a longer character says -/
def lead? (b : UInt8) : Option Pending :=
  if b < 0xC2 then none
  else if b < 0xE0 then some ⟨b.toNat - 0xC0, 0, 0x80, 0xBF⟩
  else if b < 0xF0 then some ⟨b.toNat - 0xE0, 1, if b = 0xE0 then 0xA0 else 0x80, if b = 0xED then 0x9F else 0xBF⟩
  else if b < 0xF5 then some ⟨b.toNat - 0xF0, 2, if b = 0xF0 then 0x90 else 0x80, if b = 0xF4 then 0x8F else 0xBF⟩
  else none

/-- what is found at a byte between characters, `none` where no character is, and the character that it begins -/
def start (b : UInt8) : List (Option Char) × Option Pending :=
  if b < 0x80 then ([some (Char.ofNat b.toNat)], none)
  else
    match lead? b with
    | some p => ([], some p)
    | none => ([none], none)

/-- the same inside a character -/
def Pending.next (p : Pending) (b : UInt8) : List (Option Char) × Option Pending :=
  if p.least ≤ b ∧ b ≤ p.greatest then
    let number := p.number * 64 + (b.toNat - 0x80)
    match p.behind with
    | 0 => ([some (Char.ofNat number)], none)
    | n + 1 => ([], some ⟨number, n, 0x80, 0xBF⟩)
  else (none :: (start b).1, (start b).2)

def readFrom : Option Pending → List UInt8 → List (Option Char)
  | none, [] => []
  | some _, [] => [none]
  | none, b :: rest => (start b).1 ++ readFrom (start b).2 rest
  | some p, b :: rest => (p.next b).1 ++ readFrom (p.next b).2 rest

/-- the characters, `none` for every stretch that is none -/
def read (bytes : List UInt8) : List (Option Char) := readFrom none bytes

/-- the bytes for a reader, with U+FFFD for what is no character -/
def display (bytes : List UInt8) : String := String.ofList ((read bytes).map fun c => c.getD '\uFFFD')

/-- the text with these bytes -/
def text? (bytes : List UInt8) : Option String := if utf8 (display bytes) = bytes then some (display bytes) else none

end Utf8

end LaunchReports
