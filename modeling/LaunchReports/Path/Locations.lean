/-
The places that commands work with: home, working directory and database.

Without a choice the database is in a directory of the home. A chosen path with a first component `~` is inside the
home, any other relative one inside the working directory; but a text that only begins with a `~` is refused.

The system has paths as bytes, and so they are resolved. `Locations` are the places of paths that are texts.
-/
import LaunchReports.Path.Lexical
import LaunchReports.Text.Utf8

namespace LaunchReports

inductive LocationError where
  | notAbsolute (label path : String)
  | foreignHome (path : String)
  | homeNotSet
deriving DecidableEq, Repr

def LocationError.message : LocationError → String
  | notAbsolute label path => label ++ " must be absolute: " ++ path
  | foreignHome path => "only `~` and `~/...` home paths are supported: " ++ path
  | homeNotSet => "HOME is not set; pass --home-dir"

/-! ## Bytes -/

/-- the places as the system has them -/
structure Places where
  home : List UInt8
  workingDirectory : List UInt8
  database : List UInt8
deriving DecidableEq, Repr

namespace Places

def dataDirectoryName : String := ".simstats"

def databaseName : String := "stats.sqlite"

def absolute (label : String) (path : List UInt8) : Except LocationError (List UInt8) :=
  if RawPath.isAbsolute path then .ok (RawPath.clean path) else .error (.notAbsolute label (Utf8.display path))

/-- with the home in place of a first component `~` -/
def expandHome (home path : List UInt8) : Except LocationError (List UInt8) :=
  if (RawPath.components path).head? = some (.name (utf8 "~")) then
    .ok (RawPath.join home (RawPath.ofComponents (RawPath.components path).tail))
  else if (Utf8.text? path).any fun text => text.toList.head? = some '~' then .error (.foreignHome (Utf8.display path))
  else .ok path

def resolve (home workingDirectory : List UInt8) (chosen : Option (List UInt8)) : Except LocationError Places := do
  let home ← absolute "home_dir" home
  let workingDirectory ← absolute "cwd" workingDirectory
  match chosen with
  | none =>
    return ⟨home, workingDirectory, RawPath.join (RawPath.join home (utf8 dataDirectoryName)) (utf8 databaseName)⟩
  | some path =>
    return ⟨home, workingDirectory, RawPath.clean (RawPath.join workingDirectory (← expandHome home path))⟩

end Places

/-! ## Texts -/

structure Locations where
  home : String
  workingDirectory : String
  database : String
deriving DecidableEq, Repr

def Places.display (p : Places) : Locations :=
  ⟨Utf8.display p.home, Utf8.display p.workingDirectory, Utf8.display p.database⟩

namespace Locations

def resolve (home workingDirectory : String) (chosen : Option String) : Except LocationError Locations :=
  (Places.resolve (utf8 home) (utf8 workingDirectory) (chosen.map utf8)).map Places.display

/-- where the database is -/
def dataDirectory (l : Locations) : String := (Path.parent? l.database).getD l.workingDirectory

end Locations

end LaunchReports
