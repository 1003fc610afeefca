/-
Writing session records into a store, all of them or none.

A `Batch` is the store as it grows, the ids that this import has looked up and what it has written. The names of a
record are interned table by table before its row; a name that the import has met before is not interned again. Nothing
of a batch that fails is kept.
-/
import LaunchReports.Record.Session
import LaunchReports.Store.Rows
import LaunchReports.Time.Timestamp

namespace LaunchReports

/-! ## Errors -/

/-- why a record cannot be written -/
inductive WriteFault where
  | badTimestamp (error : TimestampError)
  /-- there is no schema -/
  | missingTable (table : NameTable)
  | noIdForName (table : NameTable) (name : String)
  | noIdForSession
deriving DecidableEq, Repr

def WriteFault.message : WriteFault → String
  | badTimestamp e => e.message
  | missingTable t =>
    "failed to prepare " ++ t.name ++ " insert: no such table: " ++ t.name ++
      ": Error code 1: SQL error or missing database"
  | noIdForName t name =>
    "failed to insert " ++ t.name ++ " name `" ++ name ++
      "`: database or disk is full: Error code 13: Insertion failed because database is full"
  | noIdForSession =>
    "failed to insert session: database or disk is full: Error code 13: Insertion failed because database is full"

/-- the record that fails, counted from zero, and why -/
structure WriteError where
  index : Nat
  fault : WriteFault
deriving DecidableEq, Repr

def WriteError.message (e : WriteError) : String :=
  "failed to write session record " ++ String.ofList (Numeral.ofNat e.index) ++ ": " ++ e.fault.message

/-- the import does not end with an error but ends the program -/
def WriteError.isFatal (e : WriteError) : Bool := e.fault = .badTimestamp .beyondCalendar

/-! ## Batches -/

structure WriteStats where
  sessionsWritten : Nat
  flashInfoWritten : Nat
  javaInfoWritten : Nat
  namesCreated : Nat
deriving DecidableEq, Repr

structure Batch where
  store : Store
  /-- the ids that were looked up, the latest first -/
  known : List ((NameTable × String) × Int64)
  stats : WriteStats
deriving DecidableEq, Repr

namespace Batch

def start (s : Store) : Batch := ⟨s, [], ⟨0, 0, 0, 0⟩⟩

/-- the id of a name, new or old -/
def nameId (b : Batch) (t : NameTable) (name : String) : Except WriteFault (Int64 × Batch) :=
  match b.known.lookup (t, name) with
  | some id => .ok (id, b)
  | none =>
    match (b.store.names.get t).intern? name with
    | none => .error (.noIdForName t name)
    | some (names, interned) =>
      .ok (interned.id,
        { store := { b.store with names := b.store.names.set t names }
          known := ((t, name), interned.id) :: b.known
          stats := { b.stats with namesCreated := b.stats.namesCreated + if interned.isNew then 1 else 0 } })

def nameId? (b : Batch) (t : NameTable) : Option String → Except WriteFault (Option Int64 × Batch)
  | none => .ok (none, b)
  | some name => (b.nameId t name).map fun (id, c) => (some id, c)

/-! ## Rows -/

/-- the id of the new row, and the batch with it -/
def addSession (b : Batch) (timestamp : String) (r : SessionRecord) : Except WriteFault (Int64 × Batch) := do
  let (project, b) ← b.nameId .simProject r.simProject
  let (name, b) ← b.nameId .simName r.simName
  let (deployment, b) ← b.nameId? .deployment r.simDeployment
  let (tag, b) ← b.nameId? .distributionTag r.simDistributionTag
  let (os, b) ← b.nameId? .simplifiedOs r.hostSimplifiedOs
  match nextId? b.store.lastSession with
  | none => throw .noIdForSession
  | some id =>
    let row : SessionRow :=
      { id := id
        timestamp := timestamp
        simType := r.simType.discriminant
        simProject := project
        simName := name
        simDeployment := deployment
        simDistributionTag := tag
        simDev := r.simDev
        simMajorVersion := r.simMajorVersion
        simMinorVersion := r.simMinorVersion
        simDevVersion := r.simDevVersion
        simSvnRevision := r.simSvnRevision
        simVersionTimestamp := r.simVersionTimestamp
        simLocaleLanguage := r.simLocaleLanguage
        simLocaleCountry := r.simLocaleCountry
        simSessionsSince := r.simSessionsSince
        simTotalSessions := r.simTotalSessions
        hostLocaleLanguage := r.hostLocaleLanguage
        hostLocaleCountry := r.hostLocaleCountry
        hostSimplifiedOs := os }
    return (id,
      { b with
        store := { b.store with sessions := b.store.sessions ++ [row], lastSession := id }
        stats := { b.stats with sessionsWritten := b.stats.sessionsWritten + 1 } })

def addFlash (b : Batch) (id : Int64) (f : FlashInfo) : Except WriteFault Batch := do
  let (versionType, b) ← b.nameId? .flashVersionType f.versionType
  let (domain, b) ← b.nameId? .flashDomain f.domain
  let (os, b) ← b.nameId? .flashOs f.os
  let row : FlashRow :=
    ⟨id, versionType, f.versionMajor, f.versionMinor, f.versionRevision, f.versionBuild, f.timeOffset,
      f.accessibility, domain, os⟩
  return { b with
    store := { b.store with flash := b.store.flash ++ [row] }
    stats := { b.stats with flashInfoWritten := b.stats.flashInfoWritten + 1 } }

def addJava (b : Batch) (id : Int64) (j : JavaInfo) : Except WriteFault Batch := do
  let (osName, b) ← b.nameId? .javaOsName j.osName
  let (osVersion, b) ← b.nameId? .javaOsVersion j.osVersion
  let (osArch, b) ← b.nameId? .javaOsArch j.osArch
  let (vendor, b) ← b.nameId? .javaVendor j.vendor
  let (webstartVersion, b) ← b.nameId? .javaWebstartVersion j.webstartVersion
  let (timezone, b) ← b.nameId? .javaTimezone j.timezone
  let row : JavaRow := ⟨id, osName, osVersion, osArch, vendor, webstartVersion, timezone⟩
  return { b with
    store := { b.store with java := b.store.java ++ [row] }
    stats := { b.stats with javaInfoWritten := b.stats.javaInfoWritten + 1 } }

def addRecord (b : Batch) (r : SessionRecord) : Except WriteFault Batch := do
  let timestamp ← (Timestamp.normalize r.timestamp).mapError .badTimestamp
  let (id, b) ← b.addSession timestamp r
  let b ← match r.flash with
    | some f => b.addFlash id f
    | none => pure b
  match r.java with
  | some j => b.addJava id j
  | none => return b

/-- the records from the one numbered `index` on -/
def addRecords (b : Batch) (index : Nat) : List SessionRecord → Except WriteError Batch
  | [] => .ok b
  | r :: rest =>
    match b.addRecord r with
    | .error fault => .error ⟨index, fault⟩
    | .ok c => c.addRecords (index + 1) rest

end Batch

/-! ## Imports -/

/-- the store with all records, and what was written -/
def Store.write (s : Store) (records : List SessionRecord) : Except WriteError (Store × WriteStats) :=
  ((Batch.start s).addRecords 0 records).map fun b => (b.store, b.stats)

/-- the first record without a schema fails at the table of its project -/
def writeWithoutSchema : List SessionRecord → Except WriteError WriteStats
  | [] => .ok ⟨0, 0, 0, 0⟩
  | r :: _ =>
    match Timestamp.normalize r.timestamp with
    | .error e => .error ⟨0, .badTimestamp e⟩
    | .ok _ => .error ⟨0, .missingTable .simProject⟩

end LaunchReports
