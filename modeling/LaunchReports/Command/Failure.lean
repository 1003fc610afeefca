/-
Why a command fails.

A failure prints one text and decides the exit code: a rejected request or record is told apart from what goes wrong
while a command runs.
-/
import LaunchReports.Command.Usage
import LaunchReports.Files.Content
import LaunchReports.Path.Locations
import LaunchReports.Record.Lines
import LaunchReports.Report.Envelope

namespace LaunchReports

inductive Failure where
  | unresolved (error : LocationError)
  | unreadableRequest (path : String) (error : FileError)
  | unreadableRecords (path : String) (error : FileError)
  | badRecord (failure : RecordFailure)
  | noDirectory (path : String) (error : FileError)
  | unopened (path : String)
  | noSchema (error : DatabaseError)
  | unwritten (error : WriteError)
  | unsaved (error : DatabaseError)
  /-- the envelope says what is wrong -/
  | answered (failure : CommandFailure)
deriving Repr

namespace Failure

/-- the code of a database error, and what the code says -/
def codeText : DatabaseError → String
  | .notADatabase => "26: File opened that is not a database file"
  | .cannotOpen => "14: Unable to open the database file"
  | .cannotRead => "266: Error reading from disk"
  | .cannotDelete => "2570: I/O error within xDelete of a VFS object"
  | _ => "1: SQL error or missing database"

def codedMessage (e : DatabaseError) : String := e.message ++ ": Error code " ++ codeText e

def unopenedMessage (path : String) : String :=
  "failed to open sqlite database: " ++ path ++ ": " ++ DatabaseError.cannotOpen.message ++ ": " ++ path ++
    ": Error code " ++ codeText .cannotOpen

def message : Failure → String
  | unresolved e => e.message
  | unreadableRequest path e => "failed to read request file: " ++ path ++ ": " ++ e.message
  | unreadableRecords path e => "failed to read session records: " ++ path ++ ": " ++ e.message
  | badRecord f => f.message
  | noDirectory path e => "failed to create database parent directory: " ++ path ++ ": " ++ e.message
  | unopened path => unopenedMessage path
  | noSchema e => "failed to create telemetry schema: " ++ codedMessage e
  | unwritten e => e.message
  | unsaved e => "failed to commit session import: " ++ codedMessage e
  | answered f => f.envelope.text

/-- the request or a record is at fault -/
def isRejection : Failure → Bool
  | badRecord _ => true
  | answered f => f.rejected
  | _ => false

/-- the program ends on the spot, without saying which command failed -/
def isFatal : Failure → Bool
  | unwritten e => e.isFatal
  | _ => false

def exitCode (f : Failure) : Nat := if f.isFatal then 101 else if f.isRejection then 2 else 1

/-! ## Envelopes -/

def invalidRequest (path : String) (e : ReadError) : Failure :=
  .answered
    ⟨(Envelope.failure CommandName.report.text "invalid_request" "request file is not valid").withErrorDetails
      (.object [("path", .string path), ("cause", .string e.message)]), true⟩

def reportError (e : ReportError) : Failure := .answered (.ofReportError CommandName.report.text e)

def unavailable (database cause : String) : Failure :=
  .answered
    ⟨(Envelope.failure CommandName.report.text "database_unavailable" "unable to open database").withErrorDetails
      (.object [("database", .string database), ("cause", .string cause)]), false⟩

/-- a report does not create the database that it is to read -/
def missingDatabase (database : String) : Failure :=
  unavailable database ("database does not exist: " ++ database ++ " (run `simstats init` first)")

end Failure

end LaunchReports
