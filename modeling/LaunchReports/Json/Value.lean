/-
JSON values: numbers are integers or double precision reals, objects keep their members in order.

`Json.compact` and `Json.pretty` are the two written forms. Strings escape the quote, the backslash and the control
characters below U+0020, the common five by a letter and the others by `\u` and four lower case hex digits; everything
else is written as it is.
-/
import LaunchReports.Number.Shortest

namespace LaunchReports

inductive JsonNumber where
  | integer (n : Int)
  | real (x : Binary64)
deriving DecidableEq, Repr

inductive Json where
  | null
  | bool (b : Bool)
  | number (n : JsonNumber)
  | string (s : String)
  | array (items : List Json)
  | object (members : List (String × Json))
deriving Repr, Inhabited

namespace Json

def integer (n : Int) : Json := .number (.integer n)

/-- a finite real; values that are not finite have no number and become `null` -/
def real (x : Binary64) : Json := if x.isFinite then .number (.real x) else .null

def strings (texts : List String) : Json := .array (texts.map .string)

def ofOption {α : Type} (encode : α → Json) : Option α → Json
  | none => .null
  | some a => encode a

/-- a member that is left out where there is no value -/
def present {α : Type} (key : String) (encode : α → Json) : Option α → List (String × Json)
  | none => []
  | some a => [(key, encode a)]

/-! ## Written forms -/

/-- reals in JSON: without an exponent from 0.00001 up to below 10 ^ 16, whole numbers with one zero after the point -/
def realStyle : RealStyle := ⟨.even, some (-4, 16), ['.', '0']⟩

def numberText : JsonNumber → List Char
  | .integer n => Numeral.ofInt n
  | .real x => x.text realStyle

def hexDigit (n : Nat) : Char := Nat.digitChar (n % 16)

/-- how one character stands inside a string -/
def escape (c : Char) : List Char :=
  if c = '"' then ['\\', '"']
  else if c = '\\' then ['\\', '\\']
  else if c.toNat = 0x8 then ['\\', 'b']
  else if c.toNat = 0xC then ['\\', 'f']
  else if c = '\n' then ['\\', 'n']
  else if c = '\r' then ['\\', 'r']
  else if c = '\t' then ['\\', 't']
  else if c.toNat < 0x20 then ['\\', 'u', '0', '0', hexDigit (c.toNat / 16), hexDigit c.toNat]
  else [c]

def quoted (s : String) : List Char := '"' :: (s.toList.flatMap escape ++ ['"'])

mutual

/-- without any white space -/
def chars : Json → List Char
  | .null => ['n', 'u', 'l', 'l']
  | .bool true => ['t', 'r', 'u', 'e']
  | .bool false => ['f', 'a', 'l', 's', 'e']
  | .number n => numberText n
  | .string s => quoted s
  | .array items => '[' :: itemChars items
  | .object members => '{' :: memberChars members

/-- the items of an array and its closing bracket -/
def itemChars : List Json → List Char
  | [] => [']']
  | [item] => item.chars ++ [']']
  | item :: next :: rest => item.chars ++ ',' :: itemChars (next :: rest)

/-- the members of an object and its closing brace -/
def memberChars : List (String × Json) → List Char
  | [] => ['}']
  | [(key, value)] => quoted key ++ ':' :: (value.chars ++ ['}'])
  | (key, value) :: next :: rest => quoted key ++ ':' :: (value.chars ++ ',' :: memberChars (next :: rest))

end

/-- the written form without white space -/
def compact (j : Json) : String := String.ofList j.chars

def indent (depth : Nat) : List Char := '\n' :: List.replicate (2 * depth) ' '

mutual

/-- one item or member a line, two blanks deeper than what holds it; `depth` is the depth of the value itself -/
def prettyChars (depth : Nat) : Json → List Char
  | .array [] => ['[', ']']
  | .object [] => ['{', '}']
  | .array items => '[' :: prettyItems depth items ++ indent depth ++ [']']
  | .object members => '{' :: prettyMembers depth members ++ indent depth ++ ['}']
  | other => other.chars

def prettyItems (depth : Nat) : List Json → List Char
  | [] => []
  | [item] => indent (depth + 1) ++ item.prettyChars (depth + 1)
  | item :: next :: rest =>
    indent (depth + 1) ++ item.prettyChars (depth + 1) ++ ',' :: prettyItems depth (next :: rest)

def prettyMembers (depth : Nat) : List (String × Json) → List Char
  | [] => []
  | [(key, value)] => indent (depth + 1) ++ quoted key ++ ':' :: ' ' :: value.prettyChars (depth + 1)
  | (key, value) :: next :: rest =>
    indent (depth + 1) ++ quoted key ++ ':' :: ' ' :: value.prettyChars (depth + 1) ++
      ',' :: prettyMembers depth (next :: rest)

end

def pretty (j : Json) : String := String.ofList (j.prettyChars 0)

/-! ## Objects -/

/-- `key` set to `value`: in place if the key is there, else at the end -/
def insertMember (key : String) (value : Json) : List (String × Json) → List (String × Json)
  | [] => [(key, value)]
  | (k, v) :: rest => if k = key then (key, value) :: rest else (k, v) :: insertMember key value rest

/-- an object from pairs; a repeated key keeps its first place and its last value -/
def ofPairs (pairs : List (String × Json)) : Json :=
  .object (pairs.foldl (fun members p => insertMember p.1 p.2 members) [])

def member? (key : String) : Json → Option Json
  | .object members => members.lookup key
  | _ => none

end Json

end LaunchReports
