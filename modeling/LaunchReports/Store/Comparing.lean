/-
How values compare, and when a condition holds.

`NULL` compares with nothing. Numbers compare by exact value, an integer and a real as well, and come before texts;
texts compare by code points. A text compared with a column of integers counts as the number that it is the numeral of,
blanks around it ignored.
-/
import LaunchReports.Sql.Condition
import LaunchReports.Text.Precedence
import LaunchReports.Text.Keyed
import LaunchReports.Store.Rows

namespace LaunchReports

/-! ## Values -/

namespace Value

def compareInt (a b : Int) : Ordering := if a < b then .lt else if b < a then .gt else .eq

def compareText (a b : String) : Ordering :=
  if precedes a b then .lt else if precedes b a then .gt else .eq

def compareBytes : List UInt8 → List UInt8 → Ordering
  | [], [] => .eq
  | [], _ :: _ => .lt
  | _ :: _, [] => .gt
  | a :: s, b :: t => (compareInt a.toNat b.toNat).then (compareBytes s t)

/-- `NULL`, numbers, texts, blobs -/
def rank : Value → Nat
  | null => 0
  | integer _ | real _ => 1
  | text _ => 2
  | blob _ => 3

/-- the order of all values, `NULL` the first -/
def order (a b : Value) : Ordering :=
  match a, b with
  | integer m, integer n => compareInt m.toInt n.toInt
  | integer m, real y => Binary64.compareInt m.toInt y
  | real x, integer n => (Binary64.compareInt n.toInt x).swap
  | real x, real y => Binary64.compare x y
  | text s, text t => compareText s t
  | blob s, blob t => compareBytes s t
  | a, b => compareInt a.rank b.rank

/-- blanks around a numeral in a text -/
def isAsciiBlank (c : Char) : Bool := c = ' ' || (0x9 ≤ c.toNat && c.toNat ≤ 0xD)

/-- the significand of a real in a text has about 19 digits: a number from here on takes in no more -/
def significandRoom : Nat := 1844674407370955160

/-- an exponent of more than five digits counts as ten thousand -/
def limitedExponent (e : Int) : Int := if e.natAbs < 100000 then e else if e < 0 then -10000 else 10000

/-- the real nearest to a literal, as far as its digits are taken in -/
def realOfLiteral (l : Literal) : Binary64 :=
  Binary64.ofDecimal (Literal.curtailed significandRoom { l with exponent := limitedExponent l.exponent })

/-- the number that a whole text is the numeral of: exact if it is an integer of 64 bits, else a real -/
def numeral? (s : String) : Option Value :=
  let inner := ((s.toList.dropWhile isAsciiBlank).reverse.dropWhile isAsciiBlank).reverse
  match (Numeral.int? inner).filter fitsInt64 with
  | some n => some (integer (Int64.ofInt n))
  | none => (Literal.read? inner).map fun l => real (realOfLiteral l)

/-- an operand as it is compared with a column -/
def operandFor (c : Column) : Value → Value
  | text s => if c.holdsText then text s else (numeral? s).getD (text s)
  | v => v

end Value

/-! ## Conditions -/

def Operator.accepts (op : Operator) (o : Ordering) : Bool :=
  match op with
  | equal => o = .eq
  | notEqual => o != .eq
  | less => o = .lt
  | lessOrEqual => o != .gt
  | greater => o = .gt
  | greaterOrEqual => o != .lt

/-- nothing if either side is `NULL` -/
def Operator.compare (op : Operator) (a b : Value) : Option Bool :=
  if a = .null ∨ b = .null then none else some (op.accepts (a.order b))

def Comparison.truth (c : Comparison) (column : Column) (cell : Value) : Option Bool :=
  match c with
  | isNull => some (cell = .null)
  | isNotNull => some (cell != .null)
  | binary op operand => op.compare cell (operand.operandFor column)

/-- the variables of a connection, by symbol -/
abbrev Variables := Keyed Value

/-- the value of a variable, `NULL` if it was never set -/
def Variables.value (v : Variables) (t : NameTable) : Value := (v.get? t.symbol).getD .null

namespace Condition

/-- what the condition says of a row; nothing stands for unknown -/
def truth (v : Variables) (row : Row) : Condition → Option Bool
  | compares column comparison => comparison.truth column (row column)
  | isOfType .java => Operator.equal.compare (row (.session .simType)) (.integer 0)
  | isOfType .flash => Operator.notEqual.compare (row (.session .simType)) (.integer 0)
  | refersTo column target => Operator.equal.compare (row column) (Variables.value v target)
  | equates a b => Operator.equal.compare (row a) (row b)

/-- only rows of which the condition is true are kept -/
def holds (v : Variables) (row : Row) (c : Condition) : Bool := c.truth v row = some true

/-- the tables whose columns the condition reads -/
def tables : Condition → List Table
  | compares column _ => [column.table]
  | isOfType _ => [.session]
  | refersTo column _ => [column.table]
  | equates a b => [a.table, b.table]

end Condition

end LaunchReports
