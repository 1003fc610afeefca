/-
The conditions of a report, and the texts they become.

A `Fragment` is a piece of SQL with the parameters for its placeholders and the variable that it reads, if any.
-/
import LaunchReports.Sql.Comparison
import LaunchReports.Sql.Variable
import LaunchReports.Schema.SimType

namespace LaunchReports

structure Fragment where
  sql : String
  params : List Value
  /-- the symbol of the variable that the text reads -/
  symbol : Option String
deriving DecidableEq, Repr

namespace Fragment

/-- text without parameters or variables -/
def plain (sql : String) : Fragment := ⟨sql, [], none⟩

/-- the comparison of a column -/
def ofComparison (column : String) (c : Comparison) : Fragment := ⟨c.sql column, c.params, none⟩

def allParams (fragments : List Fragment) : List Value := fragments.flatMap Fragment.params

/-- the variables that the fragments read, in order of appearance -/
def symbols (fragments : List Fragment) : List String := fragments.filterMap Fragment.symbol

/-- all fragments at once; more than one are put between parentheses -/
def whereClause : List Fragment → String
  | [] => ""
  | [only] => " WHERE " ++ only.sql
  | many => " WHERE (" ++ " AND ".intercalate (many.map Fragment.sql) ++ ")"

end Fragment

inductive Condition where
  /-- a comparison of the column with an operand -/
  | compares (column : Column) (comparison : Comparison)
  /-- the session is of the type -/
  | isOfType (t : SimType)
  /-- the column holds the value of the variable of `target` -/
  | refersTo (column : Column) (target : NameTable)
  /-- both columns hold the same -/
  | equates (a b : Column)
deriving DecidableEq, Repr

namespace Condition

def sql : Condition → String
  | compares column comparison => comparison.sql column.text
  | isOfType .java => (Column.session .simType).text ++ " = 0"
  | isOfType .flash => (Column.session .simType).text ++ " != 0"
  | refersTo column target => column.text ++ " = " ++ Variable.reference target.symbol
  | equates a b => a.text ++ " = " ++ b.text

def params : Condition → List Value
  | compares _ comparison => comparison.params
  | _ => []

/-- the name table whose variable the condition reads -/
def reads? : Condition → Option NameTable
  | refersTo _ target => some target
  | _ => none

def fragment (c : Condition) : Fragment := ⟨c.sql, c.params, c.reads?.map NameTable.symbol⟩

/-- a column holds an id of its name table -/
def names (column : Column) (target : NameTable) : Condition := equates column (.names target .id)

/-- a side row belongs to the session -/
def belongs (s : SideTable) : Condition := equates (.session .id) s.sessionId

end Condition

end LaunchReports
