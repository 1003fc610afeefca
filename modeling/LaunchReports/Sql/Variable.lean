/-
Variables: a temporary table of the connection carries ids from one statement of a plan to the next.

A binding statement sets a variable to the id of a name, to `NULL` if the table has no such name. Later statements read
it back through a scalar subquery.
-/
import LaunchReports.Sql.Value
import LaunchReports.Schema.Column

namespace LaunchReports.Variable

def bindingsTable : String := "report_bindings"

def declareSql : String :=
  "CREATE TEMP TABLE IF NOT EXISTS " ++ bindingsTable ++ " (symbol TEXT PRIMARY KEY NOT NULL, value INTEGER)"

/-- sets the variable of `target` to the id of the name that is the one parameter -/
def bindSql (target : NameTable) : String :=
  "INSERT OR REPLACE INTO temp." ++ bindingsTable ++ " (symbol, value) VALUES ('" ++ target.symbol ++
    "', (SELECT " ++ target.name ++ ".id FROM " ++ target.name ++ " WHERE " ++ target.name ++
    ".name = ?)) RETURNING value"

/-- the value of the variable -/
def reference (symbol : String) : String :=
  "(SELECT value FROM temp." ++ bindingsTable ++ " WHERE symbol = '" ++ symbol ++ "')"

end LaunchReports.Variable
