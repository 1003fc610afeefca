/-
Why a report fails.

An error of the request itself is a rejection; the others come from the plan or the database.
-/
import LaunchReports.Sql.DatabaseError

namespace LaunchReports

inductive ReportError where
  | badFilterField (field : String)
  | badFilterValue (field value reason : String)
  | badOrderField (order : String)
  | missingRequiredFilter (query filter : String)
  | unboundVariable (symbol : String)
  | statementExecution (index : Nat) (cause : DatabaseError)
deriving DecidableEq, Repr

namespace ReportError

def code : ReportError → String
  | badFilterField .. => "bad_filter_field"
  | badFilterValue .. => "bad_filter_value"
  | badOrderField .. => "bad_order_field"
  | missingRequiredFilter .. => "missing_required_filter"
  | unboundVariable .. => "unbound_variable"
  | statementExecution .. => "statement_execution"

def message : ReportError → String
  | badFilterField field => "unknown filter field `" ++ field ++ "`"
  | badFilterValue field value reason =>
    "invalid value `" ++ value ++ "` for filter `" ++ field ++ "`: " ++ reason
  | badOrderField order => "order column `" ++ order ++ "` is not an identifier"
  | missingRequiredFilter query filter => "query `" ++ query ++ "` requires a `" ++ filter ++ "` filter"
  | unboundVariable symbol => "variable `" ++ symbol ++ "` is dereferenced before it is bound"
  | statementExecution index _ => "statement " ++ String.ofList (Numeral.ofNat index) ++ " failed"

/-- the request is at fault -/
def isRejection : ReportError → Bool
  | badFilterField .. | badFilterValue .. | badOrderField .. | missingRequiredFilter .. => true
  | unboundVariable .. | statementExecution .. => false

def cause? : ReportError → Option DatabaseError
  | statementExecution _ cause => some cause
  | _ => none

end ReportError

end LaunchReports
