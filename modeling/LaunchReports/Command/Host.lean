/-
What commands ask of the system they run on.

Commands are written over an arbitrary `Host`, which answers every `Access` in a monad of its own, so a run can be
followed access by access.
-/
import LaunchReports.Files.Content

namespace LaunchReports

inductive Access where
  | print (line : String)
  | printError (line : String)
  | readText (path : String)
  | isFile (path : String)
  /-- makes a directory and all above it -/
  | createDirectories (path : String)
  /-- what a database file holds; where there is no file an empty one may be created -/
  | openDatabase (path : String) (mayCreate : Bool)
  | saveDatabase (path : String) (content : Database)
deriving DecidableEq, Repr

/-- what an access is answered with; a database that cannot be opened is `none` -/
abbrev Access.Reply : Access → Type
  | print _ | printError _ => Unit
  | readText _ => Except FileError String
  | isFile _ => Bool
  | createDirectories _ => Except FileError Unit
  | openDatabase .. => Option Database
  | saveDatabase .. => Except DatabaseError Unit

abbrev Host (m : Type → Type) := (a : Access) → m a.Reply

/-- what a program is started with, apart from its arguments -/
structure Environment where
  home : Option String
  /-- the path of the database for command lines that give none -/
  database : Option String
  workingDirectory : String
deriving DecidableEq, Repr

end LaunchReports
