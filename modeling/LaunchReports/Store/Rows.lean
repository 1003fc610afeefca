/-
The rows of the session tables, and the store that holds all tables.

Ids take the place of names. `Store.rows` gives the rows of any table as maps from columns to values.
-/
import LaunchReports.Schema.Column
import LaunchReports.Sql.Value
import LaunchReports.Store.Names

namespace LaunchReports

structure SessionRow where
  id : Int64
  timestamp : String
  simType : Int64
  simProject : Int64
  simName : Int64
  simDeployment : Option Int64
  simDistributionTag : Option Int64
  simDev : Option Int64
  simMajorVersion : Option Int64
  simMinorVersion : Option Int64
  simDevVersion : Option Int64
  simSvnRevision : Option Int64
  simVersionTimestamp : Option Int64
  simLocaleLanguage : Option String
  simLocaleCountry : Option String
  simSessionsSince : Option Int64
  simTotalSessions : Option Int64
  hostLocaleLanguage : Option String
  hostLocaleCountry : Option String
  hostSimplifiedOs : Option Int64
deriving DecidableEq, Repr

structure FlashRow where
  sessionId : Int64
  versionType : Option Int64
  versionMajor : Option Int64
  versionMinor : Option Int64
  versionRevision : Option Int64
  versionBuild : Option Int64
  timeOffset : Option Int64
  accessibility : Option Int64
  domain : Option Int64
  os : Option Int64
deriving DecidableEq, Repr

structure JavaRow where
  sessionId : Int64
  osName : Option Int64
  osVersion : Option Int64
  osArch : Option Int64
  vendor : Option Int64
  webstartVersion : Option Int64
  timezone : Option Int64
deriving DecidableEq, Repr

structure Store where
  names : NameTables
  sessions : List SessionRow
  /-- the highest session id that was taken -/
  lastSession : Int64
  flash : List FlashRow
  java : List JavaRow
  /-- the versions of the schema that were noted -/
  versions : List String
deriving DecidableEq, Repr

namespace Store

/-- tables without rows -/
def empty : Store := ⟨.empty, [], 0, [], [], []⟩

/-- notes a version of the schema, once -/
def noteVersion (s : Store) (version : String) : Store :=
  if version ∈ s.versions then s else { s with versions := s.versions ++ [version] }

end Store

/-! ## Cells -/

def Value.ofInteger? (n : Option Int64) : Value := (n.map Value.integer).getD .null

def Value.ofText? (s : Option String) : Value := (s.map Value.text).getD .null

def SessionRow.cell (r : SessionRow) : SessionColumn → Value
  | .id => .integer r.id
  | .timestamp => .text r.timestamp
  | .simType => .integer r.simType
  | .simProject => .integer r.simProject
  | .simName => .integer r.simName
  | .simDeployment => .ofInteger? r.simDeployment
  | .simDistributionTag => .ofInteger? r.simDistributionTag
  | .simDev => .ofInteger? r.simDev
  | .simMajorVersion => .ofInteger? r.simMajorVersion
  | .simMinorVersion => .ofInteger? r.simMinorVersion
  | .simDevVersion => .ofInteger? r.simDevVersion
  | .simSvnRevision => .ofInteger? r.simSvnRevision
  | .simVersionTimestamp => .ofInteger? r.simVersionTimestamp
  | .simLocaleLanguage => .ofText? r.simLocaleLanguage
  | .simLocaleCountry => .ofText? r.simLocaleCountry
  | .simSessionsSince => .ofInteger? r.simSessionsSince
  | .simTotalSessions => .ofInteger? r.simTotalSessions
  | .hostLocaleLanguage => .ofText? r.hostLocaleLanguage
  | .hostLocaleCountry => .ofText? r.hostLocaleCountry
  | .hostSimplifiedOs => .ofInteger? r.hostSimplifiedOs

def FlashRow.cell (r : FlashRow) : FlashColumn → Value
  | .sessionId => .integer r.sessionId
  | .versionType => .ofInteger? r.versionType
  | .versionMajor => .ofInteger? r.versionMajor
  | .versionMinor => .ofInteger? r.versionMinor
  | .versionRevision => .ofInteger? r.versionRevision
  | .versionBuild => .ofInteger? r.versionBuild
  | .timeOffset => .ofInteger? r.timeOffset
  | .accessibility => .ofInteger? r.accessibility
  | .domain => .ofInteger? r.domain
  | .os => .ofInteger? r.os

def JavaRow.cell (r : JavaRow) : JavaColumn → Value
  | .sessionId => .integer r.sessionId
  | .osName => .ofInteger? r.osName
  | .osVersion => .ofInteger? r.osVersion
  | .osArch => .ofInteger? r.osArch
  | .vendor => .ofInteger? r.vendor
  | .webstartVersion => .ofInteger? r.webstartVersion
  | .timezone => .ofInteger? r.timezone

def NameRow.cell (r : NameRow) : NameColumn → Value
  | .id => .integer r.id
  | .name => .text r.name

/-! ## Tables -/

/-- a row of one table; columns of other tables are `NULL` -/
abbrev Row := Column → Value

def SessionRow.row (r : SessionRow) : Row
  | .session c => r.cell c
  | _ => .null

def FlashRow.row (r : FlashRow) : Row
  | .flash c => r.cell c
  | _ => .null

def JavaRow.row (r : JavaRow) : Row
  | .java c => r.cell c
  | _ => .null

def NameRow.row (t : NameTable) (r : NameRow) : Row
  | .names u c => if u = t then r.cell c else .null
  | _ => .null

/-- the rows of a table in the order in which they were written -/
def Store.rows (s : Store) : Table → List Row
  | .session => s.sessions.map SessionRow.row
  | .side .flashInfo => s.flash.map FlashRow.row
  | .side .javaInfo => s.java.map JavaRow.row
  | .names t => (s.names.get t).rows.map (NameRow.row t)

end LaunchReports
