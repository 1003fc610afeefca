/-
The statements that create the schema: one table a name table, then the session tables that refer to them, two indexes
and the table that records the version of the schema.
-/
import LaunchReports.Schema.Column

namespace LaunchReports.Schema

def version : String := "simstats.sqlite.v1"

/-! ## Columns -/

/-- what a column declaration says after the name and the type -/
inductive Constraint where
  | primaryKey
  | autoPrimaryKey
  | notNull
  | unique
  | references (table : Table)
deriving DecidableEq, Repr

def Constraint.text : Constraint → String
  | primaryKey => "PRIMARY KEY"
  | autoPrimaryKey => "PRIMARY KEY AUTOINCREMENT"
  | notNull => "NOT NULL"
  | unique => "UNIQUE"
  | references t => "REFERENCES " ++ t.name ++ "(id)"

def constraints (c : Column) : List Constraint :=
  match c with
  | .session .id | .names _ .id => [.autoPrimaryKey]
  | .names _ .name => [.notNull, .unique]
  | .flash .sessionId | .java .sessionId => [.primaryKey, .references .session]
  | .session .timestamp | .session .simType => [.notNull]
  | .session .simProject => [.notNull, .references (.names .simProject)]
  | .session .simName => [.notNull, .references (.names .simName)]
  | c => c.target?.toList.map fun t => .references (.names t)

def columnLine (c : Column) : String :=
  "    " ++ " ".intercalate
    (c.name :: (if c.holdsText then "TEXT" else "INTEGER") :: (constraints c).map Constraint.text)

/-! ## Tables -/

/-- conditions on whole rows -/
def checks : Table → List String
  | .session => ["    CHECK (sim_type IN (0, 1))"]
  | _ => []

def createTable (t : Table) : String :=
  "CREATE TABLE IF NOT EXISTS " ++ t.name ++ " (\n" ++
    ",\n".intercalate (t.columns.map columnLine ++ checks t) ++ "\n);\n"

def createIndexes : String :=
  "CREATE INDEX IF NOT EXISTS idx_session_timestamp ON session(timestamp);\n" ++
    "CREATE INDEX IF NOT EXISTS idx_session_sim_name ON session(sim_name);\n"

def versionTable : String := "schema_meta"

def createVersionTable : String :=
  "CREATE TABLE IF NOT EXISTS " ++ versionTable ++
    " (\n    schema_version TEXT NOT NULL PRIMARY KEY,\n    applied_at_utc TEXT NOT NULL\n);\n"

/-- the whole script -/
def create : String := "".intercalate (Table.all.map createTable) ++ createIndexes ++ createVersionTable

end LaunchReports.Schema
