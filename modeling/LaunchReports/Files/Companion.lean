/-
The files beside a database, named after it.

A program that is interrupted leaves a journal or a log behind. They are settled before the first statement: those of a
blank database are deleted, of any other database a journal is worked off and deleted once it has begun, and so is
every log, along with its index. A directory in the place of a journal or log cannot be settled, and the database
refuses every statement with the reason; the journal of a blank database is only missed when something is written.
-/
import LaunchReports.Sql.DatabaseError

namespace LaunchReports

inductive Companion where
  | journal
  | log
  | logIndex
deriving DecidableEq, Repr

namespace Companion

def ending : Companion → String
  | journal => "-journal"
  | log => "-wal"
  | logIndex => "-shm"

/-- what is found at the place of a companion; an empty file counts as nothing -/
inductive Trace where
  | nothing
  | file (first : UInt8)
  | directory
deriving DecidableEq, Repr

/-- the companions that are deleted, and what stops the database from being used -/
structure Settlement where
  deleted : List Companion
  obstacle : Option DatabaseError
deriving DecidableEq, Repr

/-- a journal that begins with zero has not begun -/
def settleJournal (blank : Bool) : Trace → Settlement
  | .nothing => ⟨[], none⟩
  | .file first => ⟨if blank || first != 0 then [journal] else [], none⟩
  | .directory => ⟨[], if blank then none else some .cannotRead⟩

def settleLog (blank : Bool) : Trace → Settlement
  | .nothing => ⟨[], none⟩
  | .file _ => ⟨if blank then [log] else [log, logIndex], none⟩
  | .directory => ⟨[], some (if blank then .cannotDelete else .cannotOpen)⟩

/-- the journal comes first; where it is an obstacle the log is left alone -/
def settle (blank : Bool) (atJournal atLog : Trace) : Settlement :=
  let first := settleJournal blank atJournal
  if first.obstacle.isSome then first
  else
    let second := settleLog blank atLog
    ⟨first.deleted ++ second.deleted, second.obstacle⟩

/-- a database is opened only where the path of its journal has at most 512 bytes -/
def hasRoom (path : String) : Bool := (path ++ journal.ending).utf8ByteSize ≤ 512

end Companion

end LaunchReports
