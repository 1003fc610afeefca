/-
What a database answers when it refuses a statement.
-/
import LaunchReports.Number.Numeral

namespace LaunchReports

/-- what is wrong at one place of a statement -/
inductive StatementFault where
  | noSuchColumn (name : String)
  | ambiguousColumn (name : String)
  | unexpectedWord (word : String)
deriving DecidableEq, Repr

def StatementFault.message : StatementFault → String
  | noSuchColumn name => "no such column: " ++ name
  | ambiguousColumn name => "ambiguous column name: " ++ name
  | unexpectedWord word => "near \"" ++ word ++ "\": syntax error"

inductive DatabaseError where
  /-- a fault with the statement and the offset of the fault in bytes -/
  | faultyStatement (fault : StatementFault) (sql : String) (offset : Nat)
  | incompleteInput (sql : String)
  | noSuchTable (name : String)
  | integerOverflow
  | notADatabase
  /-- a file of the database cannot be opened -/
  | cannotOpen
  /-- a file of the database cannot be read -/
  | cannotRead
  /-- a file of the database cannot be deleted -/
  | cannotDelete
  | invalidColumnName (name : String)
  | noRows
  | notReadOnly
deriving DecidableEq, Repr

def DatabaseError.message : DatabaseError → String
  | faultyStatement fault sql offset =>
    fault.message ++ " in " ++ sql ++ " at offset " ++ String.ofList (Numeral.ofNat offset)
  | incompleteInput _ => "incomplete input"
  | noSuchTable name => "no such table: " ++ name
  | integerOverflow => "integer overflow"
  | notADatabase => "file is not a database"
  | cannotOpen => "unable to open database file"
  | cannotRead | cannotDelete => "disk I/O error"
  | invalidColumnName name => "Invalid column name: " ++ name
  | noRows => "Query returned no rows"
  | notReadOnly => "Query is not read-only"

end LaunchReports
