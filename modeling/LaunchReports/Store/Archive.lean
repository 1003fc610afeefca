/-
The text of a database file.

A store is written as one JSON object: a member for each table with the highest id taken and the rows, each an object
from column names to values, and the versions of the schema. An empty text is a database without a schema, any other
text that cannot be read is none.
-/
import LaunchReports.Store.Connection

namespace LaunchReports

namespace Archive

/-! ## Writing -/

def row (columns : List Column) (r : Row) : Json := .object (columns.map fun c => (c.name, (r c).toJson))

/-- the highest id taken in a table; side tables take theirs from the sessions -/
def last (s : Store) : Table → Int64
  | .names t => (s.names.get t).last
  | .session | .side _ => s.lastSession

def table (s : Store) (t : Table) : Json :=
  .object [("last", .integer (last s t).toInt), ("rows", .array ((s.rows t).map (row t.columns)))]

def document (s : Store) : Json :=
  .object ((Table.all.map fun t => (t.name, table s t)) ++ [(Schema.versionTable, .strings s.versions)])

/-! ## Reading -/

/-- the members of an object that is closed -/
def members : Reader (List (String × Draft))
  | .object list .closed => .ok list
  | d => .error (Reader.mismatch "a map" d)

def readNames : Reader Names := fun d => do
  let fields ← members d
  let readRow : Reader NameRow := fun d => do
    let cells ← members d
    return ⟨← Reader.required cells NameColumn.id.text Reader.int64,
      ← Reader.required cells NameColumn.name.text Reader.string⟩
  return ⟨← Reader.required fields "rows" (Reader.list readRow), ← Reader.required fields "last" Reader.int64⟩

def readSession : Reader SessionRow := fun d => do
  let cells ← members d
  let integer := fun (c : SessionColumn) => Reader.required cells c.name Reader.int64
  let integer? := fun (c : SessionColumn) => Reader.required cells c.name (Reader.optional Reader.int64)
  let text? := fun (c : SessionColumn) => Reader.required cells c.name (Reader.optional Reader.string)
  return {
    id := ← integer .id
    timestamp := ← Reader.required cells SessionColumn.timestamp.name Reader.string
    simType := ← integer .simType
    simProject := ← integer .simProject
    simName := ← integer .simName
    simDeployment := ← integer? .simDeployment
    simDistributionTag := ← integer? .simDistributionTag
    simDev := ← integer? .simDev
    simMajorVersion := ← integer? .simMajorVersion
    simMinorVersion := ← integer? .simMinorVersion
    simDevVersion := ← integer? .simDevVersion
    simSvnRevision := ← integer? .simSvnRevision
    simVersionTimestamp := ← integer? .simVersionTimestamp
    simLocaleLanguage := ← text? .simLocaleLanguage
    simLocaleCountry := ← text? .simLocaleCountry
    simSessionsSince := ← integer? .simSessionsSince
    simTotalSessions := ← integer? .simTotalSessions
    hostLocaleLanguage := ← text? .hostLocaleLanguage
    hostLocaleCountry := ← text? .hostLocaleCountry
    hostSimplifiedOs := ← integer? .hostSimplifiedOs }

def readFlash : Reader FlashRow := fun d => do
  let cells ← members d
  let integer? := fun (c : FlashColumn) => Reader.required cells c.name (Reader.optional Reader.int64)
  return {
    sessionId := ← Reader.required cells FlashColumn.sessionId.name Reader.int64
    versionType := ← integer? .versionType
    versionMajor := ← integer? .versionMajor
    versionMinor := ← integer? .versionMinor
    versionRevision := ← integer? .versionRevision
    versionBuild := ← integer? .versionBuild
    timeOffset := ← integer? .timeOffset
    accessibility := ← integer? .accessibility
    domain := ← integer? .domain
    os := ← integer? .os }

def readJava : Reader JavaRow := fun d => do
  let cells ← members d
  let integer? := fun (c : JavaColumn) => Reader.required cells c.name (Reader.optional Reader.int64)
  return {
    sessionId := ← Reader.required cells JavaColumn.sessionId.name Reader.int64
    osName := ← integer? .osName
    osVersion := ← integer? .osVersion
    osArch := ← integer? .osArch
    vendor := ← integer? .vendor
    webstartVersion := ← integer? .webstartVersion
    timezone := ← integer? .timezone }

/-- the rows of a table that does not hold names -/
def readRows {α : Type} (read : Reader α) : Reader (List α) := fun d => do
  Reader.required (← members d) "rows" (Reader.list read)

def readStore : Reader Store := fun d => do
  let tables ← members d
  let names ← NameTable.all.foldlM (fun n t => do
    return NameTables.set n t (← Reader.required tables t.name readNames)) NameTables.empty
  let sessions := Table.session.name
  return {
    names := names
    sessions := ← Reader.required tables sessions (readRows readSession)
    lastSession := ← Reader.required tables sessions fun d => do
      Reader.required (← members d) "last" Reader.int64
    flash := ← Reader.required tables SideTable.flashInfo.table.name (readRows readFlash)
    java := ← Reader.required tables SideTable.javaInfo.table.name (readRows readJava)
    versions := ← Reader.required tables Schema.versionTable (Reader.list Reader.string) }

end Archive

namespace Database

/-- the text of a file with this content -/
def archive : Database → String
  | stored s => (Archive.document s).compact
  | _ => ""

def ofArchive (text : String) : Database :=
  if text.isEmpty then schemaless
  else
    match Reader.parse Archive.readStore text.toList with
    | .ok s => stored s
    | .error _ => unusable .notADatabase

end Database

end LaunchReports
