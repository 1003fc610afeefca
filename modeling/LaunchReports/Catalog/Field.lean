/-
The fields by which a report can filter, in the order in which their conditions appear.

A field is a column with the grammar of its values. Names of requests are only ever looked up here.
-/
import LaunchReports.Schema.Column
import LaunchReports.Schema.SimType

namespace LaunchReports

/-- the grammar of the values of a field -/
inductive Grammar where
  /-- a comparison with a number -/
  | numeric
  /-- equality with a text -/
  | text
  /-- a name whose id the column holds -/
  | lookup (target : NameTable)
  /-- `java` or `flash` -/
  | simType
deriving DecidableEq, Repr

namespace Grammar

def key : Grammar → String
  | numeric => "numeric_comparison"
  | text => "string_equality"
  | lookup _ => "foreign_key_lookup"
  | simType => "sim_type_discriminant"

def usage : Grammar → String
  | numeric => "null | not_null | [less_than|less_than_equal|greater_than|greater_than_equal:]<number>"
  | text => "null | not_null | <text>"
  | lookup _ => "<name>"
  | simType => "java | flash"

def target? : Grammar → Option NameTable
  | lookup t => some t
  | _ => none

end Grammar

structure Field where
  column : Column
  grammar : Grammar
deriving DecidableEq, Repr

namespace Field

def name (f : Field) : String := f.column.name

/-- the side table that holds the column -/
def side? (f : Field) : Option SideTable := f.column.table.side?

def numeric (c : Column) : Field := ⟨c, .numeric⟩

def text (c : Column) : Field := ⟨c, .text⟩

def lookup (c : Column) (target : NameTable) : Field := ⟨c, .lookup target⟩

def simType : Field := ⟨.session .simType, .simType⟩

/-- the field that names the simulation -/
def simName : Field := lookup (.session .simName) .simName

def all : List Field :=
  [simType,
    numeric (.session .simDev),
    numeric (.session .simMajorVersion),
    numeric (.session .simMinorVersion),
    numeric (.session .simDevVersion),
    numeric (.session .simSvnRevision),
    numeric (.session .simVersionTimestamp),
    numeric (.flash .versionMajor),
    numeric (.flash .versionMinor),
    numeric (.flash .versionRevision),
    numeric (.flash .versionBuild),
    numeric (.flash .timeOffset),
    numeric (.flash .accessibility),
    text (.session .simLocaleLanguage),
    text (.session .simLocaleCountry),
    text (.session .simSessionsSince),
    text (.session .simTotalSessions),
    text (.session .hostLocaleLanguage),
    text (.session .hostLocaleCountry),
    lookup (.session .simProject) .simProject,
    simName,
    lookup (.session .simDeployment) .deployment,
    lookup (.session .simDistributionTag) .distributionTag,
    lookup (.session .hostSimplifiedOs) .simplifiedOs,
    lookup (.flash .versionType) .flashVersionType,
    lookup (.flash .domain) .flashDomain,
    lookup (.flash .os) .flashOs,
    lookup (.java .osName) .javaOsName,
    lookup (.java .osVersion) .javaOsVersion,
    lookup (.java .osArch) .javaOsArch,
    lookup (.java .vendor) .javaVendor,
    lookup (.java .webstartVersion) .javaWebstartVersion,
    lookup (.java .timezone) .javaTimezone]

def named? (name : String) : Option Field := all.find? fun f => f.name = name

/-- the name tables behind lookup fields -/
def nameTables : List NameTable := all.filterMap fun f => f.grammar.target?

end Field

end LaunchReports
