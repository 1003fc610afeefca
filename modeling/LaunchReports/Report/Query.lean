/-
What a report can compute: how many sessions there are, how many launches they stand for, or the types of a simulation.
-/
import LaunchReports.Sql.Expression

namespace LaunchReports

inductive Query where
  | messageCount
  | sessionCount
  | simType
deriving DecidableEq, Repr, Inhabited

namespace Query

def all : List Query := [messageCount, sessionCount, simType]

def key : Query → String
  | messageCount => "message_count"
  | sessionCount => "session_count"
  | simType => "sim_type"

def ofKey? (key : String) : Option Query := all.find? fun q => q.key = key

/-- the error for a key that is none -/
def unknownMessage (key : String) : String :=
  "unknown report query `" ++ key ++ "` (expected message_count, session_count or sim_type)"

/-- what is computed over the sessions of a group -/
def measure? : Query → Option Measure
  | messageCount => some .count
  | sessionCount => some (.sum (.session .simSessionsSince))
  | simType => none

end Query

end LaunchReports
