/-
The columns of the telemetry tables.

`Column` is a column together with its table; `Column.text` is how statements write it. `Column.target?` is the name
table that an id column refers to.
-/
import LaunchReports.Schema.Table

namespace LaunchReports

inductive SessionColumn where
  | id
  | timestamp
  | simType
  | simProject
  | simName
  | simDeployment
  | simDistributionTag
  | simDev
  | simMajorVersion
  | simMinorVersion
  | simDevVersion
  | simSvnRevision
  | simVersionTimestamp
  | simLocaleLanguage
  | simLocaleCountry
  | simSessionsSince
  | simTotalSessions
  | hostLocaleLanguage
  | hostLocaleCountry
  | hostSimplifiedOs
deriving DecidableEq, Repr

namespace SessionColumn

/-- in the order of the declaration -/
def all : List SessionColumn :=
  [id, timestamp, simType, simProject, simName, simDeployment, simDistributionTag, simDev, simMajorVersion,
    simMinorVersion, simDevVersion, simSvnRevision, simVersionTimestamp, simLocaleLanguage, simLocaleCountry,
    simSessionsSince, simTotalSessions, hostLocaleLanguage, hostLocaleCountry, hostSimplifiedOs]

def name : SessionColumn → String
  | id => "id"
  | timestamp => "timestamp"
  | simType => "sim_type"
  | simProject => "sim_project"
  | simName => "sim_name"
  | simDeployment => "sim_deployment"
  | simDistributionTag => "sim_distribution_tag"
  | simDev => "sim_dev"
  | simMajorVersion => "sim_major_version"
  | simMinorVersion => "sim_minor_version"
  | simDevVersion => "sim_dev_version"
  | simSvnRevision => "sim_svn_revision"
  | simVersionTimestamp => "sim_version_timestamp"
  | simLocaleLanguage => "sim_locale_language"
  | simLocaleCountry => "sim_locale_country"
  | simSessionsSince => "sim_sessions_since"
  | simTotalSessions => "sim_total_sessions"
  | hostLocaleLanguage => "host_locale_language"
  | hostLocaleCountry => "host_locale_country"
  | hostSimplifiedOs => "host_simplified_os"

def target? : SessionColumn → Option NameTable
  | simProject => some .simProject
  | simName => some .simName
  | simDeployment => some .deployment
  | simDistributionTag => some .distributionTag
  | hostSimplifiedOs => some .simplifiedOs
  | _ => none

end SessionColumn

inductive FlashColumn where
  | sessionId
  | versionType
  | versionMajor
  | versionMinor
  | versionRevision
  | versionBuild
  | timeOffset
  | accessibility
  | domain
  | os
deriving DecidableEq, Repr

namespace FlashColumn

def all : List FlashColumn :=
  [sessionId, versionType, versionMajor, versionMinor, versionRevision, versionBuild, timeOffset, accessibility,
    domain, os]

def name : FlashColumn → String
  | sessionId => "session_id"
  | versionType => "host_flash_version_type"
  | versionMajor => "host_flash_version_major"
  | versionMinor => "host_flash_version_minor"
  | versionRevision => "host_flash_version_revision"
  | versionBuild => "host_flash_version_build"
  | timeOffset => "host_flash_time_offset"
  | accessibility => "host_flash_accessibility"
  | domain => "host_flash_domain"
  | os => "host_flash_os"

def target? : FlashColumn → Option NameTable
  | versionType => some .flashVersionType
  | domain => some .flashDomain
  | os => some .flashOs
  | _ => none

end FlashColumn

inductive JavaColumn where
  | sessionId
  | osName
  | osVersion
  | osArch
  | vendor
  | webstartVersion
  | timezone
deriving DecidableEq, Repr

namespace JavaColumn

def all : List JavaColumn := [sessionId, osName, osVersion, osArch, vendor, webstartVersion, timezone]

def name : JavaColumn → String
  | sessionId => "session_id"
  | osName => "host_java_os_name"
  | osVersion => "host_java_os_version"
  | osArch => "host_java_os_arch"
  | vendor => "host_java_vendor"
  | webstartVersion => "host_java_webstart_version"
  | timezone => "host_java_timezone"

def target? : JavaColumn → Option NameTable
  | sessionId => none
  | osName => some .javaOsName
  | osVersion => some .javaOsVersion
  | osArch => some .javaOsArch
  | vendor => some .javaVendor
  | webstartVersion => some .javaWebstartVersion
  | timezone => some .javaTimezone

end JavaColumn

inductive NameColumn where
  | id
  | name
deriving DecidableEq, Repr

namespace NameColumn

def all : List NameColumn := [.id, .name]

def text : NameColumn → String
  | .id => "id"
  | .name => "name"

end NameColumn

inductive Column where
  | session (c : SessionColumn)
  | flash (c : FlashColumn)
  | java (c : JavaColumn)
  | names (t : NameTable) (c : NameColumn)
deriving DecidableEq, Repr

namespace Column

def table : Column → Table
  | session _ => .session
  | flash _ => .side .flashInfo
  | java _ => .side .javaInfo
  | names t _ => .names t

/-- the name without the table -/
def name : Column → String
  | session c => c.name
  | flash c => c.name
  | java c => c.name
  | names _ c => c.text

/-- the qualified name -/
def text (c : Column) : String := c.table.name ++ "." ++ c.name

/-- the name table whose ids the column holds -/
def target? : Column → Option NameTable
  | session c => c.target?
  | flash c => c.target?
  | java c => c.target?
  | names _ _ => none

/-- columns that hold texts; all others hold integers -/
def holdsText : Column → Bool
  | session .timestamp | session .simLocaleLanguage | session .simLocaleCountry => true
  | session .hostLocaleLanguage | session .hostLocaleCountry => true
  | names _ .name => true
  | _ => false

end Column

/-- the columns of a table in the order of its declaration -/
def Table.columns : Table → List Column
  | .session => SessionColumn.all.map .session
  | .side .flashInfo => FlashColumn.all.map .flash
  | .side .javaInfo => JavaColumn.all.map .java
  | .names t => NameColumn.all.map (.names t)

theorem Column.mem_columns (c : Column) : c ∈ c.table.columns := by
  cases c with
  | session c => cases c <;> decide
  | flash c => cases c <;> decide
  | java c => cases c <;> decide
  | names t c => exact List.mem_map_of_mem (by cases c <;> decide)

/-- the columns of the name tables are all called alike -/
theorem Column.forall_name {P : String → Prop} (h : ∀ t ∈ Table.relations, ∀ c ∈ t.columns, P c.name)
    (hnames : ∀ c ∈ NameColumn.all, P c.text) (c : Column) : P c.name := by
  cases c with
  | names t c => exact hnames c (by cases c <;> decide)
  | session c => exact h .session (by decide) _ (Column.mem_columns (.session c))
  | flash c => exact h (.side .flashInfo) (by decide) _ (Column.mem_columns (.flash c))
  | java c => exact h (.side .javaInfo) (by decide) _ (Column.mem_columns (.java c))

/-- the column that carries the id of the session -/
def SideTable.sessionId : SideTable → Column
  | .flashInfo => .flash .sessionId
  | .javaInfo => .java .sessionId

end LaunchReports
