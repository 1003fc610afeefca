/-
The dimensions by which a report can group.

A dimension selects labels and groups by keys. Where it shows names, it links the columns that hold their ids to the
name tables. A filter field without a dimension of its own groups by its column.
-/
import LaunchReports.Catalog.Field
import LaunchReports.Sql.Condition
import LaunchReports.Sql.Expression

namespace LaunchReports

/-- a column that is joined to the name table it refers to -/
structure NameLink where
  column : Column
  target : NameTable
deriving DecidableEq, Repr

def NameLink.condition (l : NameLink) : Condition := .names l.column l.target

structure Dimension where
  name : String
  labels : List Label
  keys : List GroupKey
  links : List NameLink
  side : Option SideTable
deriving DecidableEq, Repr

namespace Dimension

/-- the names behind an id column -/
def ofNames (name : String) (column : Column) (target : NameTable) : Dimension where
  name := name
  labels := [⟨.column (.names target .name), name⟩]
  keys := [.column column]
  links := [⟨column, target⟩]
  side := column.table.side?

/-- an expression over the session or a side row -/
def ofExpression (name : String) (e : Expression) (key : GroupKey) (side : Option SideTable) : Dimension where
  name := name
  labels := [⟨e, name⟩]
  keys := [key]
  links := []
  side := side

/-- the column of a field -/
def ofField (f : Field) : Dimension := ofExpression f.name (.column f.column) (.column f.column) f.side?

def week : Dimension := ofExpression "week" (.isoWeek (.session .timestamp)) (.label "week") none

def version : Dimension :=
  ofExpression "version"
    (.joined [.column (.session .simMajorVersion), .text ".", .column (.session .simMinorVersion), .text ".",
      .column (.session .simDevVersion), .text " (", .column (.session .simSvnRevision), .text ")"])
    (.label "version") none

def simType : Dimension := ofExpression "sim_type" .simTypeName (.expression .simTypeName) none

def projectName : Dimension where
  name := "project_name"
  labels := [⟨.column (.names .simProject .name), "sim_project"⟩, ⟨.column (.names .simName .name), "sim_name"⟩]
  keys := [.column (.session .simProject), .column (.session .simName)]
  links := [⟨.session .simProject, .simProject⟩, ⟨.session .simName, .simName⟩]
  side := none

def flashVersion : Dimension :=
  ofExpression "host_flash_version"
    (.joined [.column (.flash .versionMajor), .text ",", .column (.flash .versionMinor), .text ",",
      .column (.flash .versionRevision), .text ",", .column (.flash .versionBuild)])
    (.label "host_flash_version") (some .flashInfo)

def javaOs : Dimension where
  name := "host_java_os"
  labels :=
    [⟨.joined [.column (.names .javaOsName .name), .text " ", .column (.names .javaOsVersion .name), .text " (",
      .column (.names .javaOsArch .name), .text ")"], "host_java_os"⟩]
  keys := [.column (.java .osName), .column (.java .osVersion), .column (.java .osArch)]
  links := [⟨.java .osName, .javaOsName⟩, ⟨.java .osVersion, .javaOsVersion⟩, ⟨.java .osArch, .javaOsArch⟩]
  side := some .javaInfo

def all : List Dimension :=
  [week,
    version,
    ofNames "os" (.session .hostSimplifiedOs) .simplifiedOs,
    simType,
    ofNames "sim_name" (.session .simName) .simName,
    ofNames "sim_project" (.session .simProject) .simProject,
    projectName,
    ofNames "sim_deployment" (.session .simDeployment) .deployment,
    ofNames "sim_distribution_tag" (.session .simDistributionTag) .distributionTag,
    ofNames "host_simplified_os" (.session .hostSimplifiedOs) .simplifiedOs,
    ofNames "host_flash_version_type" (.flash .versionType) .flashVersionType,
    ofNames "host_flash_domain" (.flash .domain) .flashDomain,
    ofNames "host_flash_os" (.flash .os) .flashOs,
    flashVersion,
    ofNames "host_java_os_name" (.java .osName) .javaOsName,
    ofNames "host_java_os_version" (.java .osVersion) .javaOsVersion,
    ofNames "host_java_os_arch" (.java .osArch) .javaOsArch,
    javaOs,
    ofNames "host_java_vendor" (.java .vendor) .javaVendor,
    ofNames "host_java_webstart_version" (.java .webstartVersion) .javaWebstartVersion,
    ofNames "host_java_timezone" (.java .timezone) .javaTimezone]

def named? (name : String) : Option Dimension := all.find? fun d => d.name = name

/-- what a report groups by under this name: a dimension, else a field -/
def grouping? (name : String) : Option Dimension :=
  match named? name with
  | some d => some d
  | none => (Field.named? name).map ofField

end Dimension

end LaunchReports
