/-
Reading typed values from a draft, the first problem first.

A `Reader α` turns a draft into a value or a `ReadError`. Errors are of the text (`malformed`) or of the data; the
wording is in `ReadError.message`. A record may be written as an object or as an array of its fields in their order:
`Shape.members` checks either form from left to right and gives the fields by name.
-/
import LaunchReports.Json.Draft
import LaunchReports.Text.Quoted

namespace LaunchReports

/-- a value of another kind than the one expected -/
inductive Unexpected where
  | null
  | bool (b : Bool)
  | integer (n : Int)
  | real (x : Binary64)
  | string (s : String)
  | sequence
  | map
deriving DecidableEq, Repr

def Unexpected.message : Unexpected → String
  | .null => "null"
  | .bool b => "boolean `" ++ (if b then "true" else "false") ++ "`"
  | .integer n => "integer `" ++ String.ofList (Numeral.ofInt n) ++ "`"
  | .real x => "floating point `" ++ String.ofList (Json.numberText (.real x)) ++ "`"
  | .string s => "string " ++ String.ofList (Text.quoteVisible s)
  | .sequence => "sequence"
  | .map => "map"

inductive ReadError where
  | malformed (error : SyntaxError)
  | missingField (name : String)
  | duplicateField (name : String)
  | unknownField (name : String) (known : List String)
  | unknownVariant (name : String) (known : List String)
  | invalidType (found : Unexpected) (expected : String)
  | invalidInteger (found : Int) (expected : String)
  | invalidLength (found : Nat) (expected : String)
deriving DecidableEq, Repr

/-- the names a reader would have taken -/
def alternatives : List String → String
  | [a] => "`" ++ a ++ "`"
  | [a, b] => "`" ++ a ++ "` or `" ++ b ++ "`"
  | names => "one of " ++ ", ".intercalate (names.map fun n => "`" ++ n ++ "`")

def ReadError.message : ReadError → String
  | .malformed e => e.message
  | .missingField name => "missing field `" ++ name ++ "`"
  | .duplicateField name => "duplicate field `" ++ name ++ "`"
  | .unknownField name known => "unknown field `" ++ name ++ "`, expected " ++ alternatives known
  | .unknownVariant name known => "unknown variant `" ++ name ++ "`, expected " ++ alternatives known
  | .invalidType found expected => "invalid type: " ++ found.message ++ ", expected " ++ expected
  | .invalidInteger found expected =>
    "invalid value: integer `" ++ String.ofList (Numeral.ofInt found) ++ "`, expected " ++ expected
  | .invalidLength found expected =>
    "invalid length " ++ String.ofList (Numeral.ofNat found) ++ ", expected " ++ expected

abbrev Reader (α : Type) := Draft → Except ReadError α

namespace Reader

/-- the error of a draft that is not of the expected kind; one that is no value is an error of the text -/
def mismatch (expected : String) : Draft → ReadError
  | .null => .invalidType .null expected
  | .bool b => .invalidType (.bool b) expected
  | .number (.integer n) => .invalidType (.integer n) expected
  | .number (.real x) => .invalidType (.real x) expected
  | .string s => .invalidType (.string s) expected
  | .array .. => .invalidType .sequence expected
  | .object .. => .invalidType .map expected
  | .broken _ e => .malformed e

def string : Reader String
  | .string s => .ok s
  | d => .error (mismatch "a string" d)

def bool : Reader Bool
  | .bool b => .ok b
  | d => .error (mismatch "a boolean" d)

def unit : Reader Unit
  | .null => .ok ()
  | d => .error (mismatch "unit" d)

def int64 : Reader Int64
  | .number (.integer n) =>
    if fitsInt64 n then .ok (Int64.ofInt n) else .error (.invalidInteger n "i64")
  | d => .error (mismatch "i64" d)

def uint64 : Reader UInt64
  | .number (.integer n) =>
    if fitsUInt64 n then .ok (UInt64.ofNat n.toNat) else .error (.invalidInteger n "u64")
  | d => .error (mismatch "u64" d)

/-- `null` is nothing -/
def optional {α : Type} (read : Reader α) : Reader (Option α)
  | .null => .ok none
  | d => (read d).map some

def check {α : Type} (read : Reader α) : Reader Unit := fun d => (read d).map fun _ => ()

/-! ## Variants -/

def variantNamed {α : Type} (variants : List (String × α)) (name : String) : Except ReadError α :=
  match variants.lookup name with
  | some a => .ok a
  | none => .error (.unknownVariant name (variants.map Prod.fst))

/-- one of a list of names: a string, or an object whose only member maps the name to `null` -/
def variant {α : Type} (variants : List (String × α)) : Reader α
  | .string s => variantNamed variants s
  | .object ((name, value) :: more) ending => do
    let a ← variantNamed variants name
    unit value
    match more, ending with
    | [], .closed => .ok a
    | [], .cut .entry none => .error (.malformed .eofObject)
    | _, _ => .error (.malformed .expectedValue)
  | .object [] ending => .error (.malformed (ending.objectError?.getD .expectedValue))
  | .broken (some '"') e => .error (.malformed e)
  | .broken none e => .error (.malformed e)
  | _ => .error (.malformed .expectedValue)

/-! ## Lists and maps -/

def endOf (error : Option SyntaxError) : Except ReadError Unit :=
  match error with
  | none => .ok ()
  | some e => .error (.malformed e)

def list {α : Type} (read : Reader α) : Reader (List α)
  | .array items ending => do
    let values ← items.mapM read
    endOf ending.listError?
    return values
  | d => .error (mismatch "a sequence" d)

/-- the members of an object in their order, repeated keys included -/
def map {α : Type} (read : Reader α) : Reader (List (String × α))
  | .object members ending => do
    let pairs ← members.mapM fun m => (read m.2).map fun a => (m.1, a)
    endOf ending.objectError?
    return pairs
  | d => .error (mismatch "a map" d)

mutual

/-- any value; a repeated key keeps its first place and its last value -/
def json : Draft → Except ReadError Json
  | .null => .ok .null
  | .bool b => .ok (.bool b)
  | .number n => .ok (.number n)
  | .string s => .ok (.string s)
  | .array items ending => do
    let values ← jsonItems items
    endOf ending.listError?
    return .array values
  | .object members ending => do
    let pairs ← jsonMembers members
    endOf ending.objectError?
    return .ofPairs pairs
  | .broken _ e => .error (.malformed e)

def jsonItems : List Draft → Except ReadError (List Json)
  | [] => .ok []
  | item :: rest => do
    let value ← json item
    return value :: (← jsonItems rest)

def jsonMembers : List (String × Draft) → Except ReadError (List (String × Json))
  | [] => .ok []
  | (key, item) :: rest => do
    let value ← json item
    return (key, value) :: (← jsonMembers rest)

end

/-! ## A whole text -/

def parse {α : Type} (read : Reader α) (text : List Char) : Except ReadError α := do
  let doc := Draft.ofText text
  let a ← read doc.root
  if doc.trailing then .error (.malformed .trailingCharacters) else return a

end Reader

/-! ## Records -/

/-- one field of a record -/
structure FieldShape where
  name : String
  /-- accepts the drafts that are values of the field -/
  check : Reader Unit
  /-- the array form may end before this field -/
  optional : Bool

structure Shape where
  name : String
  fields : List FieldShape
  /-- members with other names are an error -/
  closed : Bool

namespace Shape

def names (s : Shape) : List String := s.fields.map FieldShape.name

def expected (s : Shape) : String := "struct " ++ s.name

/-- one member of the object form, after those in `before` -/
def checkMember (s : Shape) (before : List String) (key : String) (value : Draft) : Except ReadError Unit :=
  match s.fields.find? fun f => f.name = key with
  | none => if s.closed then .error (.unknownField key s.names) else (Reader.json value).map fun _ => ()
  | some f => if before.contains key then .error (.duplicateField key) else f.check value

def checkMembers (s : Shape) (before : List String) : List (String × Draft) → Except ReadError Unit
  | [] => .ok ()
  | (key, value) :: rest => do
    s.checkMember before key value
    checkMembers s (key :: before) rest

/-- what follows the last field of the array form -/
def checkEnd (items : List Draft) (ending : Ending) : Except ReadError Unit :=
  match items, ending with
  | [], .closed => .ok ()
  | [], .cut .comma (some .arrayEnd) => .error (.malformed .trailingComma)
  | [], .cut .entry none => .error (.malformed .eofList)
  | _, _ => .error (.malformed .trailingCharacters)

/-- the array form from the field at `index` on -/
def checkItems (s : Shape) (ending : Ending) (index : Nat) : List FieldShape → List Draft → Except ReadError Unit
  | [], items => checkEnd items ending
  | f :: fields, [] =>
    match ending.listError? with
    | some e => .error (.malformed e)
    | none =>
      if f.optional then checkItems s ending (index + 1) fields []
      else
        .error (.invalidLength index
          (s.expected ++ " with " ++ String.ofList (Numeral.ofNat s.fields.length) ++ " elements"))
  | f :: fields, item :: items => do
    f.check item
    checkItems s ending (index + 1) fields items

/-- the fields of a record by name, each checked, in either form -/
def members (s : Shape) : Draft → Except ReadError (List (String × Draft))
  | .object list ending => do
    s.checkMembers [] list
    Reader.endOf ending.objectError?
    return list
  | .array items ending => do
    s.checkItems ending 0 s.fields items
    return s.names.zip items
  | d => .error (Reader.mismatch s.expected d)

end Shape

namespace Reader

/-- a field that has to be there -/
def required {α : Type} (members : List (String × Draft)) (name : String) (read : Reader α) : Except ReadError α :=
  match members.lookup name with
  | some d => read d
  | none => .error (.missingField name)

/-- a field with a value of its own when it is not there -/
def withDefault {α : Type} (members : List (String × Draft)) (name : String) (read : Reader α) (absent : α) :
    Except ReadError α :=
  match members.lookup name with
  | some d => read d
  | none => .ok absent

end Reader

end LaunchReports
