/-
The rows of the session tables read back, with names in place of their ids.

- `Row.record?`, `Row.flashInfo?` and `Row.javaInfo?` read a row column by column. An id that is in no row of its name
  table makes a row unreadable, `NULL` does not.
- `SessionRecord.reads_row`, `FlashInfo.reads_row` and `JavaInfo.reads_row`: the row that is made of what a record says
  and the ids of its names is read back as that.

`Row.Refers.name?_eq` says that what is read back stays the same when names are added.
-/
import LaunchReports.Proofs.Catalog.References
import LaunchReports.Proofs.Store.Interning

namespace LaunchReports

/-! ## Cells -/

namespace Value

/-- an integer, or `none` for `NULL`; nothing for other values -/
def integer? : Value → Option (Option Int64)
  | .null => some none
  | .integer n => some (some n)
  | _ => none

/-- a text, or `none` for `NULL`; nothing for other values -/
def text? : Value → Option (Option String)
  | .null => some none
  | .text s => some (some s)
  | _ => none

@[simp] theorem integer?_integer (n : Int64) : (integer n).integer? = some (some n) := rfl

@[simp] theorem text?_text (s : String) : (text s).text? = some (some s) := rfl

@[simp] theorem integer?_ofInteger? (n : Option Int64) : (ofInteger? n).integer? = some n := by cases n <;> rfl

@[simp] theorem text?_ofText? (s : Option String) : (ofText? s).text? = some s := by cases s <;> rfl

end Value

/-- the kind of simulation behind a discriminant -/
def SimType.ofDiscriminant? (n : Int64) : Option SimType := all.find? fun t => t.discriminant = n

@[simp] theorem SimType.ofDiscriminant?_discriminant (t : SimType) : ofDiscriminant? t.discriminant = some t := by
  cases t <;> decide

/-! ## Names of a row -/

namespace Row

/-- id columns are `NULL` or refer to rows of their name tables -/
def Refers (n : NameTables) (row : Row) : Prop :=
  ∀ t : NameTable, row t.column = .null ∨ ∃ r ∈ (n.get t).rows, row t.column = .integer r.id

/-- the name that a row has in a table, `none` for `NULL`; nothing for an id that is in no row -/
def name? (row : Row) (n : NameTables) (t : NameTable) : Option (Option String) := do
  match ← (row t.column).integer? with
  | none => return none
  | some id => return some (← (n.get t).name? id)

theorem Refers.grow {n m : NameTables} (hg : n.Grows m) {row : Row} (h : row.Refers n) : row.Refers m := fun t =>
  (h t).imp_right fun ⟨r, hr, e⟩ => ⟨r, (hg t).subset hr, e⟩

/-- more names do not change those of a row -/
theorem Refers.name?_eq {n m : NameTables} (hg : n.Grows m) {row : Row} (h : row.Refers n) :
    row.name? m = row.name? n := by
  funext t
  rcases h t with hnull | ⟨r, hr, hid⟩
  · rw [name?, name?, hnull]
    rfl
  · obtain ⟨more, hrows⟩ := hg t
    have hsome : ((n.get t).rows.find? fun q => q.id = r.id).isSome := by
      rw [List.find?_isSome]
      exact ⟨r, hr, by simp⟩
    have hname : (m.get t).name? r.id = (n.get t).name? r.id := by
      rw [Names.name?, Names.name?, ← hrows, List.find?_append, Option.or_of_isSome hsome]
    rw [name?, name?, hid]
    exact congrArg (fun name => name.bind fun s => some (some s)) hname

end Row

namespace Batch

theorem Stands.refers {n : NameTables} {t : NameTable} {name : Option String} {id : Option Int64}
    (h : Stands n t name id) :
    Value.ofInteger? id = .null ∨ ∃ r ∈ (n.get t).rows, Value.ofInteger? id = .integer r.id := by
  cases id with
  | none => exact .inl rfl
  | some id =>
    cases name with
    | none => cases h
    | some name => exact .inr ⟨_, h, rfl⟩

theorem Stands.name? {n : NameTables} {t : NameTable} {name : Option String} {id : Option Int64}
    (h : Stands n t name id) (hn : (n.get t).Sound) {row : Row} (hcell : row t.column = .ofInteger? id) :
    row.name? n t = some name := by
  rw [Row.name?, hcell, Value.integer?_ofInteger?]
  cases id with
  | none =>
    cases name with
    | none => rfl
    | some name => cases h
  | some id =>
    cases name with
    | none => cases h
    | some name => exact congrArg (fun name => name.bind fun s => some (some s)) (hn.name?_of_mem h)

end Batch

/-! ## Rows read back -/

namespace Row

def flashInfo? (row : Row) (n : NameTables) : Option FlashInfo := do
  return {
    versionType := ← row.name? n .flashVersionType
    versionMajor := ← (row (.flash .versionMajor)).integer?
    versionMinor := ← (row (.flash .versionMinor)).integer?
    versionRevision := ← (row (.flash .versionRevision)).integer?
    versionBuild := ← (row (.flash .versionBuild)).integer?
    timeOffset := ← (row (.flash .timeOffset)).integer?
    accessibility := ← (row (.flash .accessibility)).integer?
    domain := ← row.name? n .flashDomain
    os := ← row.name? n .flashOs }

def javaInfo? (row : Row) (n : NameTables) : Option JavaInfo := do
  return {
    osName := ← row.name? n .javaOsName
    osVersion := ← row.name? n .javaOsVersion
    osArch := ← row.name? n .javaOsArch
    vendor := ← row.name? n .javaVendor
    webstartVersion := ← row.name? n .javaWebstartVersion
    timezone := ← row.name? n .javaTimezone }

/-- the record of a session, with what its side rows say -/
def record? (row : Row) (n : NameTables) (flash : Option FlashInfo) (java : Option JavaInfo) :
    Option SessionRecord := do
  return {
    timestamp := ← ← (row (.session .timestamp)).text?
    simType := ← SimType.ofDiscriminant? (← ← (row (.session .simType)).integer?)
    simProject := ← ← row.name? n .simProject
    simName := ← ← row.name? n .simName
    simDeployment := ← row.name? n .deployment
    simDistributionTag := ← row.name? n .distributionTag
    simDev := ← (row (.session .simDev)).integer?
    simMajorVersion := ← (row (.session .simMajorVersion)).integer?
    simMinorVersion := ← (row (.session .simMinorVersion)).integer?
    simDevVersion := ← (row (.session .simDevVersion)).integer?
    simSvnRevision := ← (row (.session .simSvnRevision)).integer?
    simVersionTimestamp := ← (row (.session .simVersionTimestamp)).integer?
    simLocaleLanguage := ← (row (.session .simLocaleLanguage)).text?
    simLocaleCountry := ← (row (.session .simLocaleCountry)).text?
    simSessionsSince := ← (row (.session .simSessionsSince)).integer?
    simTotalSessions := ← (row (.session .simTotalSessions)).integer?
    hostLocaleLanguage := ← (row (.session .hostLocaleLanguage)).text?
    hostLocaleCountry := ← (row (.session .hostLocaleCountry)).text?
    hostSimplifiedOs := ← row.name? n .simplifiedOs
    flash := flash
    java := java }

variable {n m : NameTables} {row : Row}

theorem Refers.flashInfo?_eq (hg : n.Grows m) (h : row.Refers n) : row.flashInfo? m = row.flashInfo? n := by
  simp only [flashInfo?, h.name?_eq hg]

theorem Refers.javaInfo?_eq (hg : n.Grows m) (h : row.Refers n) : row.javaInfo? m = row.javaInfo? n := by
  simp only [javaInfo?, h.name?_eq hg]

theorem Refers.record?_eq (hg : n.Grows m) (h : row.Refers n) (flash : Option FlashInfo) (java : Option JavaInfo) :
    row.record? m flash java = row.record? n flash java := by
  simp only [record?, h.name?_eq hg]

end Row

/-! ## The rows of a record -/

section

open Batch

variable {n : NameTables}

/-- the row of a session with these ids -/
def SessionRecord.row (r : SessionRecord) (id : Int64) (timestamp : String) (project name : Int64)
    (deployment tag os : Option Int64) : SessionRow where
  id := id
  timestamp := timestamp
  simType := r.simType.discriminant
  simProject := project
  simName := name
  simDeployment := deployment
  simDistributionTag := tag
  simDev := r.simDev
  simMajorVersion := r.simMajorVersion
  simMinorVersion := r.simMinorVersion
  simDevVersion := r.simDevVersion
  simSvnRevision := r.simSvnRevision
  simVersionTimestamp := r.simVersionTimestamp
  simLocaleLanguage := r.simLocaleLanguage
  simLocaleCountry := r.simLocaleCountry
  simSessionsSince := r.simSessionsSince
  simTotalSessions := r.simTotalSessions
  hostLocaleLanguage := r.hostLocaleLanguage
  hostLocaleCountry := r.hostLocaleCountry
  hostSimplifiedOs := os

theorem SessionRecord.reads_row (r : SessionRecord) (hn : ∀ t, (n.get t).Sound) {project name : Int64}
    {deployment tag os : Option Int64} (hproject : Stands n .simProject (some r.simProject) (some project))
    (hname : Stands n .simName (some r.simName) (some name))
    (hdeployment : Stands n .deployment r.simDeployment deployment)
    (htag : Stands n .distributionTag r.simDistributionTag tag) (hos : Stands n .simplifiedOs r.hostSimplifiedOs os)
    (id : Int64) (timestamp : String) :
    let row := (r.row id timestamp project name deployment tag os).row
    row.Refers n ∧ ∀ flash java,
      row.record? n flash java = some { r with timestamp := timestamp, flash := flash, java := java } := by
  intro row
  have hproject' : row.name? n .simProject = some (some r.simProject) := hproject.name? (hn _) rfl
  have hname' : row.name? n .simName = some (some r.simName) := hname.name? (hn _) rfl
  have hdeployment' : row.name? n .deployment = some r.simDeployment := hdeployment.name? (hn _) rfl
  have htag' : row.name? n .distributionTag = some r.simDistributionTag := htag.name? (hn _) rfl
  have hos' : row.name? n .simplifiedOs = some r.hostSimplifiedOs := hos.name? (hn _) rfl
  refine ⟨fun t => ?_, fun flash java => ?_⟩
  · cases t with
    | simProject => exact hproject.refers
    | simName => exact hname.refers
    | deployment => exact hdeployment.refers
    | distributionTag => exact htag.refers
    | simplifiedOs => exact hos.refers
    | _ => exact .inl rfl
  · simp only [Row.record?, hproject', hname', hdeployment', htag', hos']
    simp [row, SessionRecord.row, SessionRow.row, SessionRow.cell]

/-- the side row of a session with these ids -/
def FlashInfo.row (f : FlashInfo) (id : Int64) (versionType domain os : Option Int64) : FlashRow :=
  ⟨id, versionType, f.versionMajor, f.versionMinor, f.versionRevision, f.versionBuild, f.timeOffset, f.accessibility,
    domain, os⟩

theorem FlashInfo.reads_row (f : FlashInfo) (hn : ∀ t, (n.get t).Sound) {versionType domain os : Option Int64}
    (htype : Stands n .flashVersionType f.versionType versionType) (hdomain : Stands n .flashDomain f.domain domain)
    (hos : Stands n .flashOs f.os os) (id : Int64) :
    let row := (f.row id versionType domain os).row
    row.Refers n ∧ row.flashInfo? n = some f := by
  intro row
  have htype' : row.name? n .flashVersionType = some f.versionType := htype.name? (hn _) rfl
  have hdomain' : row.name? n .flashDomain = some f.domain := hdomain.name? (hn _) rfl
  have hos' : row.name? n .flashOs = some f.os := hos.name? (hn _) rfl
  refine ⟨fun t => ?_, ?_⟩
  · cases t with
    | flashVersionType => exact htype.refers
    | flashDomain => exact hdomain.refers
    | flashOs => exact hos.refers
    | _ => exact .inl rfl
  · simp only [Row.flashInfo?, htype', hdomain', hos']
    simp [row, FlashInfo.row, FlashRow.row, FlashRow.cell]

theorem JavaInfo.reads_row (j : JavaInfo) (hn : ∀ t, (n.get t).Sound)
    {osName osVersion osArch vendor webstartVersion timezone : Option Int64}
    (hname : Stands n .javaOsName j.osName osName) (hversion : Stands n .javaOsVersion j.osVersion osVersion)
    (harch : Stands n .javaOsArch j.osArch osArch) (hvendor : Stands n .javaVendor j.vendor vendor)
    (hwebstart : Stands n .javaWebstartVersion j.webstartVersion webstartVersion)
    (hzone : Stands n .javaTimezone j.timezone timezone) (id : Int64) :
    let row := (JavaRow.mk id osName osVersion osArch vendor webstartVersion timezone).row
    row.Refers n ∧ row.javaInfo? n = some j := by
  intro row
  have hname' : row.name? n .javaOsName = some j.osName := hname.name? (hn _) rfl
  have hversion' : row.name? n .javaOsVersion = some j.osVersion := hversion.name? (hn _) rfl
  have harch' : row.name? n .javaOsArch = some j.osArch := harch.name? (hn _) rfl
  have hvendor' : row.name? n .javaVendor = some j.vendor := hvendor.name? (hn _) rfl
  have hwebstart' : row.name? n .javaWebstartVersion = some j.webstartVersion := hwebstart.name? (hn _) rfl
  have hzone' : row.name? n .javaTimezone = some j.timezone := hzone.name? (hn _) rfl
  refine ⟨fun t => ?_, ?_⟩
  · cases t with
    | javaOsName => exact hname.refers
    | javaOsVersion => exact hversion.refers
    | javaOsArch => exact harch.refers
    | javaVendor => exact hvendor.refers
    | javaWebstartVersion => exact hwebstart.refers
    | javaTimezone => exact hzone.refers
    | _ => exact .inl rfl
  · simp only [Row.javaInfo?, hname', hversion', harch', hvendor', hwebstart', hzone']
    rfl

end

end LaunchReports
