/-
Comparisons of a column with an operand, and the two grammars in which filters give them.

- Numeric filters: `null`, `not_null`, or a number, perhaps after one of four operator words and a colon; without an
  operator word the comparison is for equality.
- Text filters: `null`, `not_null`, or a text to be equal to.

Operands are values of their own: the condition of a comparison has a `?` in their place.
-/
import LaunchReports.Sql.Value

namespace LaunchReports

inductive Operator where
  | equal
  | notEqual
  | less
  | lessOrEqual
  | greater
  | greaterOrEqual
deriving DecidableEq, Repr

def Operator.symbol : Operator → String
  | .equal => "="
  | .notEqual => "!="
  | .less => "<"
  | .lessOrEqual => "<="
  | .greater => ">"
  | .greaterOrEqual => ">="

inductive Comparison where
  | isNull
  | isNotNull
  | binary (op : Operator) (operand : Value)
deriving DecidableEq, Repr

namespace Comparison

/-! ## Written forms -/

/-- the condition on a column -/
def sql (column : String) : Comparison → String
  | isNull => column ++ " IS NULL"
  | isNotNull => column ++ " IS NOT NULL"
  | binary op _ => column ++ " " ++ op.symbol ++ " ?"

def params : Comparison → List Value
  | binary _ operand => [operand]
  | _ => []

/-- the comparison with its operand in place -/
def display : Comparison → String
  | isNull => "IS NULL"
  | isNotNull => "IS NOT NULL"
  | binary op operand => op.symbol ++ " " ++ operand.literal

/-! ## Reading -/

/-- an operand that is not a finite number -/
structure NonNumericOperand where
  operand : String
deriving DecidableEq, Repr

def NonNumericOperand.message (e : NonNumericOperand) : String :=
  "expected a numeric literal, got `" ++ e.operand ++ "`"

def nullTest? (value : List Char) : Option Comparison :=
  if value = "null".toList then some isNull
  else if value = "not_null".toList then some isNotNull
  else none

/-- the operator words with their colon; no word begins another, so at most one fits -/
def operatorWords : List (List Char × Operator) :=
  [("less_than:".toList, .less), ("less_than_equal:".toList, .lessOrEqual), ("greater_than:".toList, .greater),
    ("greater_than_equal:".toList, .greaterOrEqual)]

/-- the operator, and the text of the operand -/
def splitOperator (value : List Char) : Operator × List Char :=
  match operatorWords.find? fun w => w.1.isPrefixOf value with
  | some (word, op) => (op, value.drop word.length)
  | none => (.equal, value)

/-- a whole number of 64 bits, or the nearest finite real -/
def number? (text : List Char) : Option Value :=
  match (Numeral.int? text).filter fitsInt64 with
  | some n => some (.integer (Int64.ofInt n))
  | none => ((Decimal.read? text).map Binary64.ofDecimal |>.filter Binary64.isFinite).map .real

def parseNumeric (value : List Char) : Except NonNumericOperand Comparison :=
  match nullTest? value with
  | some c => .ok c
  | none =>
    let (op, operand) := splitOperator value
    match number? operand with
    | some v => .ok (binary op v)
    | none => .error ⟨String.ofList operand⟩

def parseText (value : List Char) : Comparison :=
  (nullTest? value).getD (binary .equal (.text (String.ofList value)))

end Comparison

end LaunchReports
