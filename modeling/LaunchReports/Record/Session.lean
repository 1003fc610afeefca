/-
Session records: one launch of a simulation, as it is imported, and its JSON form.

The first four fields of a session have to be there, all others may be left out or `null`. What only a Flash or a Java
runtime reports stands in a record of its own.
-/
import LaunchReports.Json.Reading
import LaunchReports.Schema.SimType

namespace LaunchReports

structure FlashInfo where
  versionType : Option String
  versionMajor : Option Int64
  versionMinor : Option Int64
  versionRevision : Option Int64
  versionBuild : Option Int64
  timeOffset : Option Int64
  accessibility : Option Int64
  domain : Option String
  os : Option String
deriving DecidableEq, Repr

structure JavaInfo where
  osName : Option String
  osVersion : Option String
  osArch : Option String
  vendor : Option String
  webstartVersion : Option String
  timezone : Option String
deriving DecidableEq, Repr

structure SessionRecord where
  timestamp : String
  simType : SimType
  simProject : String
  simName : String
  simDeployment : Option String
  simDistributionTag : Option String
  simDev : Option Int64
  simMajorVersion : Option Int64
  simMinorVersion : Option Int64
  simDevVersion : Option Int64
  simSvnRevision : Option Int64
  simVersionTimestamp : Option Int64
  simLocaleLanguage : Option String
  simLocaleCountry : Option String
  simSessionsSince : Option Int64
  simTotalSessions : Option Int64
  hostLocaleLanguage : Option String
  hostLocaleCountry : Option String
  hostSimplifiedOs : Option String
  flash : Option FlashInfo
  java : Option JavaInfo
deriving DecidableEq, Repr

/-! ## Fields -/

namespace Reader

def text? : Reader (Option String) := optional string

def integer? : Reader (Option Int64) := optional int64

def simType : Reader SimType := variant (SimType.all.map fun t => (t.name, t))

/-- a field that is `none` when it is not there -/
def field {α : Type} (members : List (String × Draft)) (name : String) (read : Reader (Option α)) :
    Except ReadError (Option α) :=
  withDefault members name read none

end Reader

namespace FieldShape

/-- a text or `null` -/
def text (optional : Bool) (name : String) : FieldShape := ⟨name, Reader.check Reader.text?, optional⟩

/-- an integer or `null` -/
def integer (optional : Bool) (name : String) : FieldShape := ⟨name, Reader.check Reader.integer?, optional⟩

end FieldShape

def textJson (s : Option String) : Json := .ofOption .string s

def integerJson (n : Option Int64) : Json := .ofOption (fun n => .integer n.toInt) n

/-! ## Flash -/

namespace FlashInfo

def members (f : FlashInfo) : List (String × Json) :=
  [("version_type", textJson f.versionType), ("version_major", integerJson f.versionMajor),
    ("version_minor", integerJson f.versionMinor), ("version_revision", integerJson f.versionRevision),
    ("version_build", integerJson f.versionBuild), ("time_offset", integerJson f.timeOffset),
    ("accessibility", integerJson f.accessibility), ("domain", textJson f.domain), ("os", textJson f.os)]

def toJson (f : FlashInfo) : Json := .object f.members

def shape : Shape where
  name := "FlashInfo"
  fields :=
    [.text false "version_type", .integer false "version_major", .integer false "version_minor",
      .integer false "version_revision", .integer false "version_build", .integer false "time_offset",
      .integer false "accessibility", .text false "domain", .text false "os"]
  closed := true

def read : Reader FlashInfo := fun d => do
  let m ← shape.members d
  return {
    versionType := ← Reader.field m "version_type" Reader.text?
    versionMajor := ← Reader.field m "version_major" Reader.integer?
    versionMinor := ← Reader.field m "version_minor" Reader.integer?
    versionRevision := ← Reader.field m "version_revision" Reader.integer?
    versionBuild := ← Reader.field m "version_build" Reader.integer?
    timeOffset := ← Reader.field m "time_offset" Reader.integer?
    accessibility := ← Reader.field m "accessibility" Reader.integer?
    domain := ← Reader.field m "domain" Reader.text?
    os := ← Reader.field m "os" Reader.text? }

end FlashInfo

/-! ## Java -/

namespace JavaInfo

def members (j : JavaInfo) : List (String × Json) :=
  [("os_name", textJson j.osName), ("os_version", textJson j.osVersion), ("os_arch", textJson j.osArch),
    ("vendor", textJson j.vendor), ("webstart_version", textJson j.webstartVersion),
    ("timezone", textJson j.timezone)]

def toJson (j : JavaInfo) : Json := .object j.members

def shape : Shape where
  name := "JavaInfo"
  fields :=
    [.text false "os_name", .text false "os_version", .text false "os_arch", .text false "vendor",
      .text false "webstart_version", .text false "timezone"]
  closed := true

def read : Reader JavaInfo := fun d => do
  let m ← shape.members d
  return {
    osName := ← Reader.field m "os_name" Reader.text?
    osVersion := ← Reader.field m "os_version" Reader.text?
    osArch := ← Reader.field m "os_arch" Reader.text?
    vendor := ← Reader.field m "vendor" Reader.text?
    webstartVersion := ← Reader.field m "webstart_version" Reader.text?
    timezone := ← Reader.field m "timezone" Reader.text? }

end JavaInfo

/-! ## Sessions -/

namespace SessionRecord

/-- what every session has -/
def ownMembers (r : SessionRecord) : List (String × Json) :=
  [("timestamp", .string r.timestamp), ("sim_type", .string r.simType.name), ("sim_project", .string r.simProject),
    ("sim_name", .string r.simName), ("sim_deployment", textJson r.simDeployment),
    ("sim_distribution_tag", textJson r.simDistributionTag), ("sim_dev", integerJson r.simDev),
    ("sim_major_version", integerJson r.simMajorVersion), ("sim_minor_version", integerJson r.simMinorVersion),
    ("sim_dev_version", integerJson r.simDevVersion), ("sim_svn_revision", integerJson r.simSvnRevision),
    ("sim_version_timestamp", integerJson r.simVersionTimestamp),
    ("sim_locale_language", textJson r.simLocaleLanguage), ("sim_locale_country", textJson r.simLocaleCountry),
    ("sim_sessions_since", integerJson r.simSessionsSince), ("sim_total_sessions", integerJson r.simTotalSessions),
    ("host_locale_language", textJson r.hostLocaleLanguage), ("host_locale_country", textJson r.hostLocaleCountry),
    ("host_simplified_os", textJson r.hostSimplifiedOs)]

def members (r : SessionRecord) : List (String × Json) :=
  r.ownMembers ++ Json.present "flash" FlashInfo.toJson r.flash ++ Json.present "java" JavaInfo.toJson r.java

def toJson (r : SessionRecord) : Json := .object r.members

def shape : Shape where
  name := "SessionRecord"
  fields :=
    [⟨"timestamp", Reader.check Reader.string, false⟩, ⟨"sim_type", Reader.check Reader.simType, false⟩,
      ⟨"sim_project", Reader.check Reader.string, false⟩, ⟨"sim_name", Reader.check Reader.string, false⟩,
      .text true "sim_deployment", .text true "sim_distribution_tag", .integer true "sim_dev",
      .integer true "sim_major_version", .integer true "sim_minor_version", .integer true "sim_dev_version",
      .integer true "sim_svn_revision", .integer true "sim_version_timestamp", .text true "sim_locale_language",
      .text true "sim_locale_country", .integer true "sim_sessions_since", .integer true "sim_total_sessions",
      .text true "host_locale_language", .text true "host_locale_country", .text true "host_simplified_os",
      ⟨"flash", Reader.check (Reader.optional FlashInfo.read), true⟩,
      ⟨"java", Reader.check (Reader.optional JavaInfo.read), true⟩]
  closed := true

def read : Reader SessionRecord := fun d => do
  let m ← shape.members d
  return {
    timestamp := ← Reader.required m "timestamp" Reader.string
    simType := ← Reader.required m "sim_type" Reader.simType
    simProject := ← Reader.required m "sim_project" Reader.string
    simName := ← Reader.required m "sim_name" Reader.string
    simDeployment := ← Reader.field m "sim_deployment" Reader.text?
    simDistributionTag := ← Reader.field m "sim_distribution_tag" Reader.text?
    simDev := ← Reader.field m "sim_dev" Reader.integer?
    simMajorVersion := ← Reader.field m "sim_major_version" Reader.integer?
    simMinorVersion := ← Reader.field m "sim_minor_version" Reader.integer?
    simDevVersion := ← Reader.field m "sim_dev_version" Reader.integer?
    simSvnRevision := ← Reader.field m "sim_svn_revision" Reader.integer?
    simVersionTimestamp := ← Reader.field m "sim_version_timestamp" Reader.integer?
    simLocaleLanguage := ← Reader.field m "sim_locale_language" Reader.text?
    simLocaleCountry := ← Reader.field m "sim_locale_country" Reader.text?
    simSessionsSince := ← Reader.field m "sim_sessions_since" Reader.integer?
    simTotalSessions := ← Reader.field m "sim_total_sessions" Reader.integer?
    hostLocaleLanguage := ← Reader.field m "host_locale_language" Reader.text?
    hostLocaleCountry := ← Reader.field m "host_locale_country" Reader.text?
    hostSimplifiedOs := ← Reader.field m "host_simplified_os" Reader.text?
    flash := ← Reader.field m "flash" (Reader.optional FlashInfo.read)
    java := ← Reader.field m "java" (Reader.optional JavaInfo.read) }

/-- the record that a whole text holds -/
def parse (text : List Char) : Except ReadError SessionRecord := Reader.parse read text

end SessionRecord

end LaunchReports
