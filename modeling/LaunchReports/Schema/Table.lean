/-
The tables of the telemetry database.

A row of `session` is one launch of a simulation. Two side tables hold what only some launches report, at most one row
a session each, and fourteen name tables hold the names that sessions and side rows refer to by id.
-/
namespace LaunchReports

/-- a table of names with ids, in the order the schema creates them -/
inductive NameTable where
  | simProject
  | simName
  | deployment
  | distributionTag
  | simplifiedOs
  | flashVersionType
  | flashDomain
  | flashOs
  | javaOsName
  | javaOsVersion
  | javaOsArch
  | javaVendor
  | javaWebstartVersion
  | javaTimezone
deriving DecidableEq, Repr

namespace NameTable

def all : List NameTable :=
  [simProject, simName, deployment, distributionTag, simplifiedOs, flashVersionType, flashDomain, flashOs, javaOsName,
    javaOsVersion, javaOsArch, javaVendor, javaWebstartVersion, javaTimezone]

theorem mem_all (t : NameTable) : t ∈ all := by cases t <;> decide

def name : NameTable → String
  | simProject => "sim_project"
  | simName => "sim_name"
  | deployment => "deployment"
  | distributionTag => "distribution_tag"
  | simplifiedOs => "simplified_os"
  | flashVersionType => "flash_version_type"
  | flashDomain => "flash_domain"
  | flashOs => "flash_os"
  | javaOsName => "java_os_name"
  | javaOsVersion => "java_os_version"
  | javaOsArch => "java_os_arch"
  | javaVendor => "java_vendor"
  | javaWebstartVersion => "java_webstart_version"
  | javaTimezone => "java_timezone"

/-- the variable that carries an id of this table from one statement to the next -/
def symbol : NameTable → String
  | simProject => "pid"
  | simName => "sid"
  | deployment => "deploy"
  | distributionTag => "dist_tag"
  | simplifiedOs => "os"
  | flashVersionType => "fl_ver_type"
  | flashDomain => "fl_domain"
  | flashOs => "fl_os"
  | javaOsName => "java_os_name"
  | javaOsVersion => "java_os_version"
  | javaOsArch => "java_os_arch"
  | javaVendor => "java_vendor"
  | javaWebstartVersion => "java_webstart_version"
  | javaTimezone => "java_timezone"

theorem symbol_injective {t u : NameTable} (h : t.symbol = u.symbol) : t = u := by
  revert h; cases t <;> cases u <;> decide

end NameTable

/-- what only some launches report -/
inductive SideTable where
  | flashInfo
  | javaInfo
deriving DecidableEq, Repr

namespace SideTable

def all : List SideTable := [flashInfo, javaInfo]

/-- how documents call the side table -/
def key : SideTable → String
  | flashInfo => "flash_info"
  | javaInfo => "java_info"

/-- what the names of its fields begin with -/
def fieldPrefix : SideTable → String
  | flashInfo => "host_flash"
  | javaInfo => "host_java"

/-- the side table whose fields begin like `field` -/
def ofField? (field : String) : Option SideTable := all.find? fun s => s.fieldPrefix.toList.isPrefixOf field.toList

end SideTable

inductive Table where
  | session
  | side (s : SideTable)
  | names (t : NameTable)
deriving DecidableEq, Repr

namespace Table

def name : Table → String
  | session => "session"
  | side .flashInfo => "session_flash_info"
  | side .javaInfo => "session_java_info"
  | names t => t.name

def side? : Table → Option SideTable
  | side s => some s
  | _ => none

/-- the tables with a row a session, in the order the schema creates them -/
def relations : List Table := [session, side .flashInfo, side .javaInfo]

/-- all tables of a report, in the order the schema creates them -/
def all : List Table := NameTable.all.map names ++ relations

theorem mem_all (t : Table) : t ∈ all := by
  match t with
  | session => decide
  | side .flashInfo => decide
  | side .javaInfo => decide
  | names t => exact List.mem_append_left _ (List.mem_map_of_mem t.mem_all)

end Table

def SideTable.table (s : SideTable) : Table := .side s

end LaunchReports
