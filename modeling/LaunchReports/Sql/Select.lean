/-
The statement that computes a report: labels and a measure over sessions and what is joined to them.
-/
import LaunchReports.Sql.Condition
import LaunchReports.Sql.Expression
import LaunchReports.Sql.Order

namespace LaunchReports

/-- the order of the rows and the greatest number of them -/
structure Arrangement where
  order : Order
  limit : Option Int64
deriving DecidableEq, Repr

structure Select where
  distinct : Bool
  labels : List Label
  /-- the measure and its name -/
  measure : Option (Measure × String)
  /-- tables beside `session` -/
  tables : List Table
  conditions : List Condition
  keys : List GroupKey
  arrangement : Option Arrangement
deriving DecidableEq, Repr

/-- the tables that follow the first one -/
def tablesClause (names : List String) : String :=
  if names.isEmpty then "" else ", " ++ ", ".intercalate names

def groupClause (keys : List String) : String :=
  if keys.isEmpty then "" else " GROUP BY " ++ ", ".intercalate keys

def Measure.named (m : Measure) (name : String) : String := m.sql ++ " AS " ++ name

namespace Select

/-- the names of the columns of the result -/
def outputs (s : Select) : List String := s.labels.map Label.name ++ (s.measure.map Prod.snd).toList

def outputSql (s : Select) : List String :=
  s.labels.map Label.sql ++ (s.measure.map fun (m, name) => m.named name).toList

/-- the statement up to its order -/
def unordered (s : Select) : String :=
  "SELECT " ++ (if s.distinct then "DISTINCT " else "") ++ ", ".intercalate s.outputSql ++
    " FROM " ++ Table.session.name ++ tablesClause (s.tables.map Table.name) ++
    Fragment.whereClause (s.conditions.map Condition.fragment) ++ groupClause (s.keys.map GroupKey.sql)

def sql (s : Select) : String :=
  s.unordered ++
    match s.arrangement with
    | none => ""
    | some a => a.order.clause ++ if a.limit.isSome then " LIMIT ?" else ""

def params (s : Select) : List Value :=
  s.conditions.flatMap Condition.params ++ (s.arrangement.bind Arrangement.limit).toList.map Value.integer

end Select

end LaunchReports
